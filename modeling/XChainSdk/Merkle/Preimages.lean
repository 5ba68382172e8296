import XChainSdk.Js.CodeUnits
import XChainSdk.Merkle.BlockContent
import XChainSdk.Merkle.CanonicalAmounts

/-!
# Preimages of the commitments

Every key and every leaf hashes its own bytes, and the bytes say which kind it is.

* `nul_mem_text_iff` : what is hashed of a string has a zero character exactly when the string has.
* `Commitment` : the kinds of keys and leaves with their fields; `preimage` the bytes they hash.
* `Commitment.encoded` : the fields as they are written.
* `commitmentPreimages_separate` : **equal preimages are of one kind and of equal written fields**,
  and a field with a zero byte has no preimage.
-/

namespace XChainSdk

open Hash Js

/-! ### Strings and their bytes -/

theorem unitChar_eq_nul_iff (u : UInt16) : unitChar u = '\x00' ↔ u = 0 := by
  have hlt := u.toNat_lt
  rw [unitChar]
  split_ifs with hsur
  · constructor
    · intro h
      exact absurd h (by decide)
    · rintro rfl
      exact absurd hsur.1 (by decide)
  · have hvalid : u.toNat.isValidChar := by
      rw [IsSurrogate] at hsur
      rw [Nat.isValidChar]
      omega
    constructor
    · intro h
      have hnat := congrArg Char.toNat h
      rw [toNat_ofNat hvalid] at hnat
      exact UInt16.toNat_inj.1 hnat
    · rintro rfl
      rfl

theorem pairChar_ne_nul {u v : UInt16} (h : IsPair u v) : pairChar u v ≠ '\x00' := by
  obtain ⟨h1, h2, h3, h4⟩ := h
  have hvalid : (0x10000 + (u.toNat - 0xD800) * 0x400 + (v.toNat - 0xDC00)).isValidChar := by
    rw [Nat.isValidChar]
    omega
  intro hnul
  have hnat := congrArg Char.toNat hnul
  rw [pairChar, toNat_ofNat hvalid] at hnat
  have hzero : ('\x00' : Char).toNat = 0 := rfl
  omega

theorem nul_mem_chars_iff (s : CodeUnits) : '\x00' ∈ s.chars ↔ 0 ∈ s := by
  induction s using CodeUnits.chars.induct with
  | case1 u v rest hpair ih =>
    have hu : u ≠ 0 := by
      rintro rfl
      exact absurd hpair.1 (by decide)
    have hv : v ≠ 0 := by
      rintro rfl
      exact absurd hpair.2.2.1 (by decide)
    rw [CodeUnits.chars, if_pos hpair]
    simp [(pairChar_ne_nul hpair).symm, ih, hu.symm, hv.symm]
  | case2 u v rest hpair ih =>
    rw [CodeUnits.chars, if_neg hpair, List.mem_cons, List.mem_cons, ih, eq_comm (b := unitChar u),
      unitChar_eq_nul_iff, eq_comm]
  | case3 u =>
    rw [CodeUnits.chars, List.mem_singleton, List.mem_singleton, eq_comm, unitChar_eq_nul_iff,
      eq_comm]
  | case4 => simp [CodeUnits.chars]

/-- Only the zero character has a zero byte. -/
theorem zero_mem_utf8EncodeChar_iff (c : Char) :
    (0 : UInt8) ∈ String.utf8EncodeChar c ↔ c = '\x00' := by
  constructor
  · intro h
    -- past seven bits every byte has its top bit set
    rcases c.utf8Size_eq with hc | hc | hc | hc
    · rw [String.utf8EncodeChar_eq_singleton hc, List.mem_singleton] at h
      have hle : c.val.toNat ≤ 127 := UInt32.le_iff_toNat_le.1 (Char.utf8Size_eq_one_iff.1 hc)
      have hzero : c.val.toNat % 256 = 0 := congrArg UInt8.toNat h.symm
      refine Char.ext (UInt32.toNat_inj.1 ?_)
      rw [Nat.mod_eq_of_lt (by omega)] at hzero
      exact hzero
    · rw [String.utf8EncodeChar_eq_cons_cons hc] at h
      simp [eq_comm (a := (0 : UInt8))] at h
    · rw [String.utf8EncodeChar_eq_cons_cons_cons hc] at h
      simp [eq_comm (a := (0 : UInt8))] at h
    · rw [String.utf8EncodeChar_eq_cons_cons_cons_cons hc] at h
      simp [eq_comm (a := (0 : UInt8))] at h
  · rintro rfl
    decide

theorem utf8_eq_flatMap (s : String) : utf8 s = s.toList.flatMap String.utf8EncodeChar := by
  have hbytes : utf8 s = s.toByteArray.data.toList := rfl
  rw [hbytes, ← String.utf8Encode_toList, List.utf8Encode, List.toList_data_toByteArray]

theorem zero_mem_utf8_iff (s : String) : (0 : UInt8) ∈ utf8 s ↔ '\x00' ∈ s.toList := by
  rw [utf8_eq_flatMap, List.mem_flatMap]
  constructor
  · rintro ⟨c, hc, hzero⟩
    rwa [(zero_mem_utf8EncodeChar_iff c).1 hzero] at hc
  · intro h
    exact ⟨_, h, (zero_mem_utf8EncodeChar_iff _).2 rfl⟩

theorem nul_mem_text_iff (s : CodeUnits) : '\x00' ∈ s.text.toList ↔ 0 ∈ s := by
  rw [CodeUnits.text, String.toList_ofList]
  exact nul_mem_chars_iff s

/-- Fields can be joined when none of them has a zero character. -/
theorem isSome_joinFields_iff (parts : List String) :
    (joinFields parts).isSome ↔ ∀ p ∈ parts, '\x00' ∉ p.toList := by
  rw [joinFields]
  split_ifs with h
  · obtain ⟨p, hp, hzero⟩ := List.any_eq_true.1 h
    refine iff_of_false Bool.false_ne_true fun hall => ?_
    exact absurd ((zero_mem_utf8_iff p).1 (List.contains_iff_mem.1 hzero)) (hall p hp)
  · refine ⟨fun _ p hp hnul => h ?_, fun _ => rfl⟩
    exact List.any_eq_true.2 ⟨p, hp, List.contains_iff_mem.2 ((zero_mem_utf8_iff p).2 hnul)⟩

/-! ### Amounts have no zero character -/

theorem mem_dropWhile_of_eq_false {α : Type} {p : α → Bool} {x : α} {xs : List α} (h : x ∈ xs)
    (hx : p x = false) : x ∈ xs.dropWhile p := by
  rw [← List.takeWhile_append_dropWhile (p := p) (l := xs)] at h
  rcases List.mem_append.1 h with h | h
  · rw [List.mem_takeWhile_imp h] at hx
    cases hx
  · exact h

theorem mem_trimChars {c : Char} {cs : List Char} (h : c ∈ cs) (hc : isJsSpace c = false) :
    c ∈ trimChars cs :=
  List.mem_reverse.2 (mem_dropWhile_of_eq_false
    (List.mem_reverse.2 (mem_dropWhile_of_eq_false h hc)) hc)

theorem nul_notMem_of_canonicalAmount {s c : String} (h : canonicalAmount s = some c) :
    '\x00' ∉ s.toList := by
  intro hnul
  obtain ⟨⟨ip, f⟩, hparts, -⟩ := Option.map_eq_some_iff.1 h
  obtain ⟨⟨ip', f'⟩, hdigits, -⟩ := Option.map_eq_some_iff.1 hparts
  obtain ⟨-, hip, hf, -, hcs⟩ := amountDigits_eq_some hdigits
  have hmem := mem_trimChars hnul (by decide)
  rcases hcs with ⟨-, hcs⟩ | ⟨-, hcs⟩
  · rw [hcs] at hmem
    exact absurd (hip _ hmem) (by decide)
  · rw [hcs] at hmem
    rcases List.mem_append.1 hmem with hmem | hmem
    · exact absurd (hip _ hmem) (by decide)
    · rcases List.mem_cons.1 hmem with hmem | hmem
      · exact absurd hmem (by decide)
      · exact absurd (hf _ hmem) (by decide)

theorem nul_notMem_canonicalAmount {s c : String} (h : canonicalAmount s = some c) :
    '\x00' ∉ c.toList :=
  nul_notMem_of_canonicalAmount (canonicalAmount_canonicalAmount h)

/-! ### Commitments -/

section Leaves

variable (H : Host)

/-- `ledgerLeaf` of a row's fields. -/
def ledgerLeaf (kind actionIndex address tick amount : String) : Option Digest :=
  (joinFields ["L", kind, actionIndex, address, tick, amount]).map (leafHash H)

/-- `actionsLeaf` of a row's fields; an absent `tx_index` is the empty text. -/
def actionsRowLeaf (actionIndex : String) (txIndex : Option String) (action : String) :
    Option Digest :=
  (joinFields ["A", actionIndex, orEmpty txIndex, action]).map (leafHash H)

/-- `contractLeaf` -/
def contractLeaf (subTable : String) (fields : List String) : Option Digest :=
  (joinFields (contractFields subTable fields)).map (leafHash H)

end Leaves

/-- The kinds of keys and leaves, with their fields. -/
inductive Commitment (S : Type) where
  | balance (chain network address tick : S)
  | escrow (chain network address tick : S)
  | stake (pubkey capability : S)
  | contractState (chain network contractIndex stateKey : S)
  | amount (amount : S)
  | stakeMember (source weight : S)
  | stakeTotal (total : S)
  | ledger (kind actionIndex address tick amount : S)
  | action (actionIndex : S) (txIndex : Option S) (action : S)
  | contract (subTable : S) (fields : List S)
deriving DecidableEq

namespace Commitment

/-- Every field changed by a function. -/
def map {S T : Type} (f : S → T) : Commitment S → Commitment T
  | balance c n a t => balance (f c) (f n) (f a) (f t)
  | escrow c n a t => escrow (f c) (f n) (f a) (f t)
  | stake p c => stake (f p) (f c)
  | contractState c n i k => contractState (f c) (f n) (f i) (f k)
  | amount a => amount (f a)
  | stakeMember s w => stakeMember (f s) (f w)
  | stakeTotal t => stakeTotal (f t)
  | ledger k i a t m => ledger (f k) (f i) (f a) (f t) (f m)
  | action i x a => action (f i) (x.map f) (f a)
  | contract t fs => contract (f t) (fs.map f)

/-- The fields. -/
def fields {S : Type} : Commitment S → List S
  | balance c n a t | escrow c n a t => [c, n, a, t]
  | stake p c => [p, c]
  | contractState c n i k => [c, n, i, k]
  | amount a => [a]
  | stakeMember s w => [s, w]
  | stakeTotal t => [t]
  | ledger k i a t m => [k, i, a, t, m]
  | action i x a => i :: x.toList ++ [a]
  | contract t fs => t :: fs

/-- The key or leaf. -/
def digest (H : Host) : Commitment String → Option Digest
  | balance c n a t => balanceKey H c n a t
  | escrow c n a t => escrowKey H c n a t
  | stake p c => stakeKey H p c
  | contractState c n i k => contractStateKey H c n i k
  | amount a => amountLeaf H a
  | stakeMember s w => stakeMemberLeaf H s (.str w)
  | stakeTotal t => stakeTotalLeaf H (.str t)
  | ledger k i a t m => ledgerLeaf H k i a t m
  | action i x a => actionsRowLeaf H i x a
  | contract t fs => contractLeaf H t fs

/-- The texts that are joined, for amounts that are canonical. -/
def parts : Commitment String → List String
  | balance c n a t => ["XCHAIN_BAL", c, n, a, t]
  | escrow c n a t => ["XCHAIN_ESC", c, n, a, t]
  | stake p c => ["XCHAIN_STK", p, c]
  | contractState c n i k => ["XCHAIN_CST", c, n, i, k]
  | amount a => [a]
  | stakeMember s w => ["STK", s, w]
  | stakeTotal t => ["STKTOTAL", t]
  | ledger k i a t m => ["L", k, i, a, t, m]
  | action i x a => ["A", i, orEmpty x, a]
  | contract t fs => contractFields t fs

/-- A key hashes its parts alone, a leaf puts the leaf prefix before them. -/
def isKey {S : Type} : Commitment S → Bool
  | balance .. | escrow .. | stake .. | contractState .. => true
  | _ => false

/-- The fields as they are written: canonical amounts, and the empty text for an absent
`tx_index`.  An amount that is not accepted throws. -/
def encoded : Commitment String → Option (Commitment String)
  | amount a => (canonicalAmount a).map amount
  | stakeMember s w => (canonicalAmount w).map (stakeMember s)
  | stakeTotal t => (canonicalAmount t).map stakeTotal
  | action i x a => some (action i (some (orEmpty x)) a)
  | c => some c

/-- The bytes that are hashed; a zero byte in a field throws. -/
def preimage (c : Commitment String) : Option Bytes := do
  let e ← c.encoded
  let joined ← joinFields e.parts
  return if c.isKey then joined else 0 :: joined

/-- A canonical amount is a field by itself. -/
theorem joinFields_singleton_of_canonicalAmount {s c : String} (h : canonicalAmount s = some c) :
    joinFields [c] = some (utf8 c) := by
  have hsome := (isSome_joinFields_iff [c]).2 fun p hp => by
    rw [List.mem_singleton.1 hp]
    exact nul_notMem_canonicalAmount h
  rw [joinFields] at hsome ⊢
  split_ifs at hsome ⊢
  · cases hsome
  · rw [List.map_singleton, List.intercalate_singleton]

theorem preimage_of_encoded {c e : Commitment String} (h : c.encoded = some e) : c.preimage =
    (joinFields e.parts).map fun joined => if c.isKey then joined else 0 :: joined := by
  rw [preimage, h]
  cases hj : joinFields e.parts with
  | none => simp [hj]
  | some b => simp [hj]

theorem preimage_of_encoded_none {c : Commitment String} (h : c.encoded = none) :
    c.preimage = none := by
  rw [preimage, h]
  rfl

/-- Every key and every leaf is the hash of its preimage. -/
theorem digest_eq (H : Host) (c : Commitment String) : c.digest H = c.preimage.map H.sha256 := by
  cases c with
  | amount a =>
    cases ha : canonicalAmount a with
    | none =>
      rw [preimage_of_encoded_none (by rw [encoded, ha, Option.map_none]), digest, amountLeaf, ha]
      rfl
    | some c =>
      rw [preimage_of_encoded (by rw [encoded, ha, Option.map_some]), digest, amountLeaf, ha, parts,
        joinFields_singleton_of_canonicalAmount ha]
      rfl
  | stakeMember s w =>
    cases hw : canonicalAmount w with
    | none =>
      rw [preimage_of_encoded_none (by rw [encoded, hw, Option.map_none]), digest, stakeMemberLeaf]
      simp [canonicalAmountJs, str?, hw]
    | some c =>
      rw [preimage_of_encoded (by rw [encoded, hw, Option.map_some]), digest, stakeMemberLeaf,
        Option.map_map]
      simp only [canonicalAmountJs, str?, Option.bind_some, hw, Option.bind_eq_bind]
      exact Option.map_eq_bind.symm
  | stakeTotal t =>
    cases ht : canonicalAmount t with
    | none =>
      rw [preimage_of_encoded_none (by rw [encoded, ht, Option.map_none]), digest, stakeTotalLeaf]
      simp [canonicalAmountJs, str?, ht]
    | some c =>
      rw [preimage_of_encoded (by rw [encoded, ht, Option.map_some]), digest, stakeTotalLeaf,
        Option.map_map]
      simp only [canonicalAmountJs, str?, Option.bind_some, ht, Option.bind_eq_bind]
      exact Option.map_eq_bind.symm
  | _ =>
    rw [preimage_of_encoded rfl, Option.map_map]
    rfl

/-! ### The bytes say which kind it is -/

theorem exists_append_of_joinFields {t : String} {ts : List String} {b : Bytes}
    (h : joinFields (t :: ts) = some b) : ∃ rest, b = utf8 t ++ rest := by
  rw [joinFields] at h
  split_ifs at h
  obtain rfl := Option.some.inj h
  cases ts with
  | nil => exact ⟨[], by simp⟩
  | cons u ts => exact ⟨_, by
      rw [List.map_cons, List.map_cons, List.intercalate_cons_cons, List.append_assoc]⟩

/-- A key starts with the letter of its tag, a leaf with the leaf prefix. -/
theorem head_of_isKey {e : Commitment String} {b : Bytes} (hkey : e.isKey = true)
    (h : joinFields e.parts = some b) : ∃ rest, b = 88 :: rest := by
  cases e with
  | balance | escrow | stake | contractState =>
    obtain ⟨rest, rfl⟩ := exists_append_of_joinFields h
    exact ⟨_, rfl⟩
  | _ => cases hkey

theorem isKey_of_encoded {c e : Commitment String} (h : c.encoded = some e) : e.isKey = c.isKey := by
  cases c with
  | amount | stakeMember | stakeTotal =>
    obtain ⟨_, -, rfl⟩ := Option.map_eq_some_iff.1 h
    rfl
  | _ =>
    cases h
    rfl

theorem txIndex_of_encoded {c : Commitment String} {i a : String} {x : Option String}
    (h : c.encoded = some (action i x a)) : ∃ t, x = some t := by
  cases c with
  | amount | stakeMember | stakeTotal =>
    obtain ⟨_, -, h⟩ := Option.map_eq_some_iff.1 h
    cases h
  | action i' x' a' =>
    cases h
    exact ⟨_, rfl⟩
  | _ => cases h

theorem parts_ne_nil (e : Commitment String) : e.parts ≠ [] := by
  cases e <;> simp [parts, contractFields]

/-- The tags keep the kinds apart, and an amount alone is a single part. -/
theorem eq_of_parts {c d e f : Commitment String} (hc : c.encoded = some e) (hd : d.encoded = some f)
    (h : e.parts = f.parts) : e = f := by
  cases e with
  | action i x a =>
    obtain ⟨t, rfl⟩ := txIndex_of_encoded hc
    cases f with
    | action i' x' a' =>
      obtain ⟨t', rfl⟩ := txIndex_of_encoded hd
      simpa [parts, orEmpty] using h
    | _ => simp [parts, contractFields] at h
  | _ => cases f <;> grind [parts, contractFields]

/-- Equal preimages are of one kind with equal written fields. -/
theorem encoded_eq_of_preimage {c d : Commitment String} {b : Bytes} (hc : c.preimage = some b)
    (hd : d.preimage = some b) : c.encoded = d.encoded := by
  obtain ⟨e, he, hc⟩ := Option.bind_eq_some_iff.1 hc
  obtain ⟨p, hp, hc⟩ := Option.bind_eq_some_iff.1 hc
  obtain ⟨f, hf, hd⟩ := Option.bind_eq_some_iff.1 hd
  obtain ⟨q, hq, hd⟩ := Option.bind_eq_some_iff.1 hd
  have hbytes : (if c.isKey then p else 0 :: p) = if d.isKey then q else 0 :: q :=
    (Option.some.inj hc).trans (Option.some.inj hd).symm
  have hjoined : p = q := by
    cases hck : c.isKey with
    | true =>
      obtain ⟨rest, rfl⟩ := head_of_isKey ((isKey_of_encoded he).trans hck) hp
      cases hdk : d.isKey with
      | true => simpa [hck, hdk] using hbytes
      | false => simp [hck, hdk] at hbytes
    | false =>
      cases hdk : d.isKey with
      | true =>
        obtain ⟨rest, rfl⟩ := head_of_isKey ((isKey_of_encoded hf).trans hdk) hq
        simp [hck, hdk] at hbytes
      | false => simpa [hck, hdk] using hbytes
  subst hjoined
  have hparts := joinFields_inj (parts_ne_nil e) (parts_ne_nil f) hp hq
  rw [he, hf, eq_of_parts he hf hparts]

/-! ### Fields with a zero character -/

/-- An encoded commitment has a zero character among its parts when the commitment has one among
its fields. -/
theorem nul_mem_parts {c e : Commitment String} (h : c.encoded = some e)
    (hnul : ∃ s ∈ c.fields, '\x00' ∈ s.toList) : ∃ p ∈ e.parts, '\x00' ∈ p.toList := by
  obtain ⟨s, hs, hnul⟩ := hnul
  cases c with
  | amount a =>
    obtain ⟨c, hc, -⟩ := Option.map_eq_some_iff.1 h
    rw [List.mem_singleton.1 hs] at hnul
    exact absurd hnul (nul_notMem_of_canonicalAmount hc)
  | stakeMember source w =>
    obtain ⟨c, hc, rfl⟩ := Option.map_eq_some_iff.1 h
    rcases List.mem_cons.1 hs with rfl | hs
    · exact ⟨_, by simp [parts], hnul⟩
    · rw [List.mem_singleton.1 hs] at hnul
      exact absurd hnul (nul_notMem_of_canonicalAmount hc)
  | stakeTotal t =>
    obtain ⟨c, hc, -⟩ := Option.map_eq_some_iff.1 h
    rw [List.mem_singleton.1 hs] at hnul
    exact absurd hnul (nul_notMem_of_canonicalAmount hc)
  | action i x a =>
    cases h
    rcases x with _ | x
    · refine ⟨s, ?_, hnul⟩
      simp only [fields, Option.toList_none, List.cons_append, List.nil_append, List.mem_cons,
        List.not_mem_nil, or_false] at hs
      rcases hs with rfl | rfl <;> simp [parts]
    · refine ⟨s, ?_, hnul⟩
      simp only [fields, Option.toList_some, List.cons_append, List.nil_append, List.mem_cons,
        List.not_mem_nil, or_false] at hs
      rcases hs with rfl | rfl | rfl <;> simp [parts, orEmpty]
  | _ =>
    cases h
    exact ⟨s, List.mem_cons_of_mem _ hs, hnul⟩

theorem preimage_of_nul {c : Commitment String} (hnul : ∃ s ∈ c.fields, '\x00' ∈ s.toList) :
    c.preimage = none := by
  cases he : c.encoded with
  | none => exact preimage_of_encoded_none he
  | some e =>
    obtain ⟨p, hp, hchar⟩ := nul_mem_parts he hnul
    cases hj : joinFields e.parts with
    | none => rw [preimage_of_encoded he, hj, Option.map_none]
    | some b =>
      have hsome : (joinFields e.parts).isSome := by rw [hj, Option.isSome_some]
      exact absurd hchar ((isSome_joinFields_iff _).1 hsome p hp)

/-- A field without a zero character adds none to the parts. -/
theorem nul_notMem_parts {c e : Commitment String} (h : c.encoded = some e)
    (hfree : ∀ s ∈ c.fields, '\x00' ∉ s.toList) : ∀ p ∈ e.parts, '\x00' ∉ p.toList := by
  intro p hp
  cases c with
  | amount a =>
    obtain ⟨c, hc, rfl⟩ := Option.map_eq_some_iff.1 h
    rw [List.mem_singleton.1 hp]
    exact nul_notMem_canonicalAmount hc
  | stakeMember source w =>
    obtain ⟨c, hc, rfl⟩ := Option.map_eq_some_iff.1 h
    simp only [parts, List.mem_cons, List.not_mem_nil, or_false] at hp
    rcases hp with rfl | rfl | rfl
    · decide
    · exact hfree _ (by simp [fields])
    · exact nul_notMem_canonicalAmount hc
  | stakeTotal t =>
    obtain ⟨c, hc, rfl⟩ := Option.map_eq_some_iff.1 h
    simp only [parts, List.mem_cons, List.not_mem_nil, or_false] at hp
    rcases hp with rfl | rfl
    · decide
    · exact nul_notMem_canonicalAmount hc
  | action i x a =>
    cases h
    simp only [parts, List.mem_cons, List.not_mem_nil, or_false] at hp
    rcases hp with rfl | rfl | rfl | rfl
    · decide
    · exact hfree _ (by simp [fields])
    · cases x with
      | none => decide
      | some x => exact hfree x (by simp [fields])
    · exact hfree _ (by simp [fields])
  | _ =>
    cases h
    rcases List.mem_cons.1 hp with rfl | hp
    · decide
    · exact hfree p hp

theorem isSome_preimage {c : Commitment String} (hencoded : c.encoded.isSome)
    (hfree : ∀ s ∈ c.fields, '\x00' ∉ s.toList) : c.preimage.isSome := by
  obtain ⟨e, he⟩ := Option.isSome_iff_exists.1 hencoded
  obtain ⟨b, hb⟩ := Option.isSome_iff_exists.1
    ((isSome_joinFields_iff _).2 (nul_notMem_parts he hfree))
  rw [preimage_of_encoded he, hb]
  rfl

theorem fields_map {S T : Type} (f : S → T) (c : Commitment S) : (c.map f).fields = c.fields.map f := by
  cases c with
  | action i x a => cases x <;> rfl
  | _ => rfl

theorem preimage_ledger (k i a t m : String) :
    (ledger k i a t m).preimage = (joinFields ["L", k, i, a, t, m]).map (0 :: ·) := by
  rw [preimage_of_encoded rfl]
  rfl

theorem preimage_action (i : String) (x : Option String) (a : String) :
    (action i x a).preimage = (joinFields ["A", i, orEmpty x, a]).map (0 :: ·) := by
  rw [preimage_of_encoded rfl]
  rfl

theorem preimage_contract (t : String) (fs : List String) :
    (contract t fs).preimage = (joinFields (contractFields t fs)).map (0 :: ·) := by
  rw [preimage_of_encoded rfl]
  rfl

/-- Every leaf of a block is one of the commitments. -/
theorem exists_of_leafFields {rows : BlockRows} {fs : List String} (h : fs ∈ rows.leafFields) :
    ∃ c : Commitment String, c.preimage = (joinFields fs).map (0 :: ·) := by
  simp only [BlockRows.leafFields, List.mem_append, List.mem_map] at h
  rcases h with
    (((((((((⟨r, -, rfl⟩ | ⟨r, -, rfl⟩) | ⟨r, -, rfl⟩) | ⟨r, -, rfl⟩) | ⟨r, -, rfl⟩) |
      ⟨r, -, rfl⟩) | ⟨r, -, rfl⟩) | ⟨r, -, rfl⟩) | ⟨r, -, rfl⟩) | ⟨r, -, rfl⟩)
  · exact ⟨_, preimage_ledger "credit" ..⟩
  · exact ⟨_, preimage_ledger "debit" ..⟩
  · exact ⟨_, preimage_ledger "escrow" ..⟩
  · exact ⟨_, preimage_action ..⟩
  · exact ⟨_, preimage_contract "contracts" _⟩
  · exact ⟨_, preimage_contract "state" _⟩
  · exact ⟨_, preimage_contract "executions" _⟩
  · exact ⟨_, preimage_contract "emissions" _⟩
  · exact ⟨_, preimage_contract "deposits" _⟩
  · exact ⟨_, preimage_contract "withdrawals" _⟩

end Commitment

/-! ### Preimages are separate -/

/-- Preimages of different kinds or of different fields are different, for fields that are any
strings. -/
structure PreimagesSeparate : Prop where
  digest : ∀ (H : Host) (c : Commitment String), c.digest H = c.preimage.map H.sha256
  eq_iff : ∀ (c d : Commitment CodeUnits) (b : Bytes), (c.map CodeUnits.text).preimage = some b →
    ((d.map CodeUnits.text).preimage = some b ↔
      (d.map CodeUnits.text).encoded = (c.map CodeUnits.text).encoded)
  nul : ∀ c : Commitment CodeUnits, (∃ s ∈ c.fields, 0 ∈ s) →
    (c.map CodeUnits.text).preimage = none
  defined : ∀ c : Commitment CodeUnits, (∀ s ∈ c.fields, 0 ∉ s) →
    ((c.map CodeUnits.text).preimage.isSome ↔ (c.map CodeUnits.text).encoded.isSome)

theorem commitmentPreimages_separate : PreimagesSeparate where
  digest := Commitment.digest_eq
  eq_iff := by
    intro c d b hc
    refine ⟨fun hd => Commitment.encoded_eq_of_preimage hd hc, fun h => ?_⟩
    obtain ⟨e, he, -⟩ := Option.bind_eq_some_iff.1 hc
    rw [he] at h
    rw [← hc, Commitment.preimage_of_encoded h, Commitment.preimage_of_encoded he,
      ← Commitment.isKey_of_encoded h, ← Commitment.isKey_of_encoded he]
  nul := by
    rintro c ⟨s, hs, hnul⟩
    refine Commitment.preimage_of_nul ⟨s.text, ?_, (nul_mem_text_iff s).2 hnul⟩
    rw [Commitment.fields_map]
    exact List.mem_map_of_mem hs
  defined := by
    intro c hfree
    constructor
    · intro h
      obtain ⟨b, hb⟩ := Option.isSome_iff_exists.1 h
      obtain ⟨e, he, -⟩ := Option.bind_eq_some_iff.1 hb
      rw [he, Option.isSome_some]
    · intro h
      refine Commitment.isSome_preimage h fun s hs => ?_
      rw [Commitment.fields_map] at hs
      obtain ⟨u, hu, rfl⟩ := List.mem_map.1 hs
      exact fun hnul => hfree u hu ((nul_mem_text_iff u).1 hnul)

/-- One amount in two spellings: an amount leaf hashes its canonical form. -/
theorem commitmentPreimages_respelled :
    ¬ ∀ c d : Commitment CodeUnits, (c.map CodeUnits.text).preimage.isSome →
      (c.map CodeUnits.text).preimage = (d.map CodeUnits.text).preimage → c = d := by
  intro h
  have hone : ((Commitment.amount [49]).map CodeUnits.text).encoded =
      some (.amount "1.000000000000000000") := by decide
  have hpoint : ((Commitment.amount [49, 46, 48]).map CodeUnits.text).encoded =
      some (.amount "1.000000000000000000") := by decide
  refine absurd (h (.amount [49]) (.amount [49, 46, 48]) ?_ ?_) (by decide)
  · refine Commitment.isSome_preimage ?_ (by decide)
    rw [hone]
    rfl
  · rw [Commitment.preimage_of_encoded hone, Commitment.preimage_of_encoded hpoint]
    rfl

end XChainSdk
