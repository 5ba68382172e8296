import XChainSdk.Js.Decimal
import XChainSdk.Js.Value
import Mathlib.Algebra.BigOperators.Group.List.Basic

/-!
# Merkle primitives

The byte layer of the commitment: domain-separated hashes, the table of empty subtrees, canonical
amounts, joined fields and key derivations.

* `leafHash`, `nodeHash`, `EMPTY` : the three domains `0x00`, `0x01` and `0x02`.
* `canonicalAmount` : fixed 18 decimals; `none` is a thrown error.
* `amountUnits` : the amount in units of `10 ^ -18`, with `decimalText_of_amountUnits`.
* `joinFields`, `smtKey` and the keys and leaves built from them.
-/

namespace XChainSdk

open Hash Js

/-- Depth of a sparse tree: a key is a 256-bit digest. -/
def SMT_DEPTH : ℕ := 256

section Hashes

variable (H : Host)

/-- `SHA256(0x00 || bytes)` -/
def leafHash (b : Bytes) : Digest := H.sha256 (0 :: b)

/-- `SHA256(0x01 || left || right)` -/
def nodeHash (left right : Bytes) : Digest := H.sha256 (1 :: (left ++ right))

/-- The preimage of the empty leaf. -/
def emptyLeafPreimage : Bytes := 2 :: utf8 "XCHAIN_EMPTY_LEAF"

/-- Roots of the all-empty subtrees of each height. -/
def EMPTY : ℕ → Digest
  | 0 => H.sha256 emptyLeafPreimage
  | h + 1 => nodeHash H (EMPTY h).bytes (EMPTY h).bytes

end Hashes

/-! ### Canonical amounts -/

/-- The integer digits without their leading zeros, keeping one digit. -/
def stripZeros : List Char → List Char
  | '0' :: d :: ds => if d.isDigit then stripZeros (d :: ds) else '0' :: d :: ds
  | ds => ds

/-- Integer digits and the digits after the point of a text that matches
`/^\d+(\.\d{1,18})?$/`. -/
def amountDigits (cs : List Char) : Option (List Char × List Char) :=
  let ip := cs.takeWhile Char.isDigit
  if ip = [] then none
  else match cs.dropWhile Char.isDigit with
    | [] => some (ip, [])
    | c :: f =>
      if c = '.' ∧ f ≠ [] ∧ f.length ≤ 18 ∧ f.all Char.isDigit then some (ip, f) else none

/-- The two parts that `canonicalAmount` joins with a point. -/
def canonicalParts (s : String) : Option (List Char × List Char) :=
  (amountDigits (trimChars s.toList)).map fun (ip, f) =>
    (stripZeros ip, (f ++ List.replicate 18 '0').take 18)

/-- `canonicalAmount` of a string. -/
def canonicalAmount (s : String) : Option String :=
  (canonicalParts s).map fun (ip, f) => String.ofList (ip ++ '.' :: f)

/-- `canonicalAmount(x)`: anything but a string throws. -/
def canonicalAmountJs (x : Js) : Option String := x.str?.bind canonicalAmount

/-- `scaled`: the canonical amount as an integer number of units of `10 ^ -18`. -/
def amountUnits (s : String) : Option ℕ :=
  (canonicalParts s).map fun (ip, f) => digitsValue ip * 10 ^ 18 + digitsValue f

/-- The text of a number of units: integer part, point, 18 digits. -/
def unitsText (n : ℕ) : String :=
  let s := Nat.toDigits 10 n
  let frac := if 18 < s.length then s.drop (s.length - 18)
    else List.replicate (18 - s.length) '0' ++ s
  let intp := if 18 < s.length then s.take (s.length - 18) else ['0']
  String.ofList (stripZeros intp ++ '.' :: frac)

/-- `sumCanonicalAmounts`: the exact sum of canonical amounts, as text. -/
def sumCanonicalAmounts (amounts : List String) : Option String :=
  (amounts.mapM amountUnits).map fun us => unitsText us.sum

/-! ### Amounts as numbers -/

theorem digitsValue_zero : digitsValue ['0'] = 0 := by decide

theorem digitsValue_replicate_zero (n : ℕ) : digitsValue (List.replicate n '0') = 0 := by
  simp [digitsValue]

@[simp] theorem digitsValue_stripZeros (ds : List Char) :
    digitsValue (stripZeros ds) = digitsValue ds := by
  induction ds using stripZeros.induct with
  | case1 d ds hd ih =>
    rw [stripZeros, if_pos hd, ih, ← List.singleton_append (l := d :: ds), digitsValue_append,
      digitsValue_zero, Nat.zero_mul, Nat.zero_add]
  | case2 d ds hd => rw [stripZeros, if_neg hd]
  | case3 ds h => rw [stripZeros]; exact h

theorem stripZeros_sublist (ds : List Char) : (stripZeros ds).Sublist ds := by
  induction ds using stripZeros.induct with
  | case1 d ds hd ih => rw [stripZeros, if_pos hd]; exact ih.cons _
  | case2 d ds hd => rw [stripZeros, if_neg hd]
  | case3 ds h => rw [stripZeros]; exact h

theorem stripZeros_ne_nil {ds : List Char} (h : ds ≠ []) : stripZeros ds ≠ [] := by
  induction ds using stripZeros.induct with
  | case1 d ds hd ih => rw [stripZeros, if_pos hd]; exact ih (by simp)
  | case2 d ds hd => rw [stripZeros, if_neg hd]; simp
  | case3 ds h' => rwa [stripZeros]; exact h'

theorem stripZeros_stripZeros (ds : List Char) : stripZeros (stripZeros ds) = stripZeros ds := by
  induction ds using stripZeros.induct with
  | case1 d ds hd ih => rw [stripZeros, if_pos hd]; exact ih
  | case2 d ds hd => rw [stripZeros, if_neg hd, stripZeros, if_neg hd]
  | case3 ds h =>
    have hself : stripZeros ds = ds := by rw [stripZeros]; exact h
    rw [hself, hself]

theorem AllDigits.stripZeros {ds : List Char} (h : AllDigits ds) : AllDigits (stripZeros ds) :=
  fun c hc => h c ((stripZeros_sublist ds).subset hc)

theorem take_append_zeros {f : List Char} (h : f.length ≤ 18) :
    (f ++ List.replicate 18 '0').take 18 = f ++ List.replicate (18 - f.length) '0' := by
  rw [List.take_append, List.take_of_length_le h, List.take_replicate]
  congr 2
  omega

/-- What a successful `amountDigits` reads. -/
theorem amountDigits_eq_some {cs ip f : List Char} (h : amountDigits cs = some (ip, f)) :
    ip ≠ [] ∧ AllDigits ip ∧ AllDigits f ∧ f.length ≤ 18 ∧
      ((f = [] ∧ cs = ip) ∨ (f ≠ [] ∧ cs = ip ++ '.' :: f)) := by
  have hsplit := List.takeWhile_append_dropWhile (p := Char.isDigit) (l := cs)
  have hip : AllDigits (cs.takeWhile Char.isDigit) := fun c hc => List.mem_takeWhile_imp hc
  simp only [amountDigits] at h
  split_ifs at h with hnil
  split at h
  · next hrest =>
    cases h
    rw [hrest, List.append_nil] at hsplit
    exact ⟨hnil, hip, by simp [AllDigits], by simp, .inl ⟨rfl, hsplit.symm⟩⟩
  · next c f' hrest =>
    split_ifs at h with hf
    obtain ⟨rfl, hne, hlen, hall⟩ := hf
    cases h
    rw [hrest] at hsplit
    exact ⟨hnil, hip, List.all_eq_true.1 hall, hlen, .inr ⟨hne, hsplit.symm⟩⟩

theorem canonicalParts_ofList {ip f : List Char} (hip : AllDigits ip) (hne : ip ≠ [])
    (hf : AllDigits f) (hf0 : f ≠ []) (hlen : f.length ≤ 18) :
    canonicalParts (String.ofList (ip ++ '.' :: f)) =
      some (stripZeros ip, (f ++ List.replicate 18 '0').take 18) := by
  have hspace : ∀ c ∈ ip ++ '.' :: f, isJsSpace c = false := fun c hc => by
    rcases List.mem_append.1 hc with hc | hc
    · exact isJsSpace_of_isDigit (hip c hc)
    · rcases List.mem_cons.1 hc with rfl | hc
      · decide
      · exact isJsSpace_of_isDigit (hf c hc)
  obtain ⟨htake, hdrop⟩ := hip.takeWhile_append (c := '.') (by decide) f
  have hall : f.all Char.isDigit = true := List.all_eq_true.2 hf
  rw [canonicalParts, String.toList_ofList, trimChars_of_no_space hspace]
  simp [amountDigits, htake, hdrop, hne, hf0, hlen, hall]

/-- The parts of a canonical amount: digits without leading zeros, and 18 digits. -/
theorem canonicalParts_eq_some {s : String} {ip f : List Char}
    (h : canonicalParts s = some (ip, f)) :
    AllDigits ip ∧ ip ≠ [] ∧ stripZeros ip = ip ∧ AllDigits f ∧ f.length = 18 := by
  obtain ⟨⟨ip₀, f₀⟩, hd, he⟩ := Option.map_eq_some_iff.1 h
  obtain ⟨hne, hip, hf, hlen, -⟩ := amountDigits_eq_some hd
  cases he
  refine ⟨hip.stripZeros, stripZeros_ne_nil hne, stripZeros_stripZeros _, fun c hc => ?_, ?_⟩
  · rcases List.mem_append.1 (List.mem_of_mem_take hc) with hc | hc
    · exact hf c hc
    · rw [List.eq_of_mem_replicate hc]; decide
  · simp

/-- A canonical amount is its own canonical form. -/
theorem canonicalParts_canonicalAmount {s c : String} (h : canonicalAmount s = some c) :
    canonicalParts c = canonicalParts s := by
  obtain ⟨⟨ip, f⟩, hp, rfl⟩ := Option.map_eq_some_iff.1 h
  obtain ⟨hip, hne, hstrip, hf, hlen⟩ := canonicalParts_eq_some hp
  rw [hp, canonicalParts_ofList hip hne hf (by rintro rfl; simp at hlen) hlen.le, hstrip,
    List.take_append_of_le_length hlen.ge, List.take_of_length_le hlen.le]

theorem canonicalAmount_canonicalAmount {s c : String} (h : canonicalAmount s = some c) :
    canonicalAmount c = some c := by
  rw [canonicalAmount, canonicalParts_canonicalAmount h, ← canonicalAmount, h]

theorem amountUnits_canonicalAmount {s c : String} (h : canonicalAmount s = some c) :
    amountUnits c = amountUnits s := by
  rw [amountUnits, amountUnits, canonicalParts_canonicalAmount h]

/-- The digits of the text of a number of units. -/
theorem unitsText_eq (n : ℕ) : ∃ ip f, AllDigits ip ∧ ip ≠ [] ∧ AllDigits f ∧ f.length = 18 ∧
    digitsValue (ip ++ f) = n ∧ unitsText n = String.ofList (stripZeros ip ++ '.' :: f) := by
  have hval : digitsValue (Nat.toDigits 10 n) = n := Nat.ofDigitChars_ten_toDigits
  have hdig := allDigits_toDigits n
  by_cases hlong : 18 < (Nat.toDigits 10 n).length
  · refine ⟨(Nat.toDigits 10 n).take ((Nat.toDigits 10 n).length - 18),
      (Nat.toDigits 10 n).drop ((Nat.toDigits 10 n).length - 18),
      fun c hc => hdig c (List.mem_of_mem_take hc), fun h => ?_,
      fun c hc => hdig c (List.mem_of_mem_drop hc), ?_, by rwa [List.take_append_drop],
      by simp [unitsText, hlong]⟩
    · have := congrArg List.length h
      simp only [List.length_take, List.length_nil] at this
      omega
    · simp only [List.length_drop]
      omega
  · refine ⟨['0'], List.replicate (18 - (Nat.toDigits 10 n).length) '0' ++ Nat.toDigits 10 n,
      by simp [AllDigits], by simp, fun c hc => ?_, ?_, ?_, by simp [unitsText, hlong]⟩
    · rcases List.mem_append.1 hc with hc | hc
      · rw [List.eq_of_mem_replicate hc]; decide
      · exact hdig c hc
    · simp only [List.length_append, List.length_replicate]
      omega
    · rw [digitsValue_append, digitsValue_append, digitsValue_replicate_zero, hval,
        digitsValue_zero, Nat.zero_mul, Nat.zero_mul, Nat.zero_add, Nat.zero_add]

/-- The text of a number of units is split where it was joined. -/
theorem canonicalParts_unitsText (n : ℕ) : ∃ ip f, canonicalParts (unitsText n) = some (ip, f) ∧
    digitsValue ip * 10 ^ 18 + digitsValue f = n ∧ unitsText n = String.ofList (ip ++ '.' :: f) := by
  obtain ⟨ip, f, hip, hne, hf, hlen, hsum, htext⟩ := unitsText_eq n
  refine ⟨stripZeros ip, f, ?_, ?_, htext⟩
  · rw [htext, canonicalParts_ofList hip.stripZeros (stripZeros_ne_nil hne) hf
      (by rintro rfl; simp at hlen) hlen.le, List.take_append_of_le_length hlen.ge,
      List.take_of_length_le hlen.le, stripZeros_stripZeros]
  · rw [← hsum, digitsValue_append, hlen, digitsValue_stripZeros]

/-- The text of a number of units reads back. -/
theorem amountUnits_unitsText (n : ℕ) : amountUnits (unitsText n) = some n := by
  obtain ⟨ip, f, hparts, hsum, -⟩ := canonicalParts_unitsText n
  rw [amountUnits, hparts, ← hsum]
  rfl

/-- An amount that is accepted has no blanks left to trim. -/
theorem trim_trim_of_amountUnits {s : String} (h : (amountUnits s).isSome) :
    trim (trim s) = trim s := by
  obtain ⟨n, hn⟩ := Option.isSome_iff_exists.1 h
  obtain ⟨⟨ip, f⟩, hp, -⟩ := Option.map_eq_some_iff.1 hn
  obtain ⟨⟨ip₀, f₀⟩, hd, -⟩ := Option.map_eq_some_iff.1 hp
  obtain ⟨-, hip, hf, -, hcs⟩ := amountDigits_eq_some hd
  have hspace : ∀ c ∈ trimChars s.toList, isJsSpace c = false := fun c hc => by
    rcases hcs with ⟨-, hcs⟩ | ⟨-, hcs⟩ <;> rw [hcs] at hc
    · exact isJsSpace_of_isDigit (hip c hc)
    · rcases List.mem_append.1 hc with hc | hc
      · exact isJsSpace_of_isDigit (hip c hc)
      · rcases List.mem_cons.1 hc with rfl | hc
        · decide
        · exact isJsSpace_of_isDigit (hf c hc)
  rw [trim, trim, String.toList_ofList, trimChars_of_no_space hspace]

/-- An amount that is accepted reads as the same number in the decimal parser. -/
theorem decimalText_of_amountUnits {s : String} {n : ℕ} (h : amountUnits s = some n) :
    decimalText (trim s) = some (n / 10 ^ 18 : ℚ) := by
  simp only [amountUnits, canonicalParts, Option.map_map, Option.map_eq_some_iff] at h
  obtain ⟨⟨ip, f⟩, hd, rfl⟩ := h
  obtain ⟨hne, hip, hf, hlen, hcs⟩ := amountDigits_eq_some hd
  obtain ⟨c, ip', rfl⟩ := List.exists_cons_of_ne_nil hne
  have hc : c.isDigit = true := hip c (by simp)
  have hunsigned : unsignedDecimal (trimChars s.toList) =
      some ((digitsValue (c :: ip' ++ f) : ℚ) / 10 ^ f.length, []) := by
    rcases hcs with ⟨rfl, hcs⟩ | ⟨hf0, hcs⟩
    · obtain ⟨htake, hdrop⟩ := hip.takeWhile_self
      simp [hcs, unsignedDecimal, htake, hdrop]
    · obtain ⟨htake, hdrop⟩ := hip.takeWhile_append (c := '.') (by decide) f
      obtain ⟨hftake, hfdrop⟩ := hf.takeWhile_self
      simp only [hcs, unsignedDecimal, htake, hdrop, hftake, hfdrop, reduceCtorEq, false_and,
        if_false]
  have hsign : splitSign (trim s).toList = (false, trimChars s.toList) := by
    rw [trim, String.toList_ofList]
    rcases hcs with ⟨rfl, hcs⟩ | ⟨hf0, hcs⟩ <;> rw [hcs] <;> exact splitSign_of_digits hc
  have hpow : (10 : ℚ) ^ f.length * 10 ^ (18 - f.length) = 1000000000000000000 := by
    rw [← pow_add, Nat.add_sub_cancel' hlen]
    norm_num
  simp only [decimalText, hsign, hunsigned, Function.comp_apply, digitsValue_stripZeros,
    take_append_zeros hlen, digitsValue_append, digitsValue_replicate_zero, List.length_replicate,
    Bool.false_eq_true, if_false, Option.some.injEq]
  push_cast
  rw [div_eq_div_iff (by positivity) (by positivity)]
  linear_combination -(digitsValue f : ℚ) * hpow

/-! ### Joined fields and keys -/

/-- `joinFields`: UTF-8 fields with a zero byte between them; a field with a zero byte throws. -/
def joinFields (parts : List String) : Option Bytes :=
  if parts.any (fun p => (utf8 p).contains 0) then none
  else some ([(0 : UInt8)].intercalate (parts.map utf8))

/-- Joined fields determine the fields. -/
theorem joinFields_inj {ps qs : List String} {b : Bytes} (hps : ps ≠ []) (hqs : qs ≠ [])
    (hp : joinFields ps = some b) (hq : joinFields qs = some b) : ps = qs := by
  have hsplit : ∀ {ps : List String}, ps ≠ [] → joinFields ps = some b →
      b.splitOn 0 = ps.map utf8 := by
    intro ps hne h
    simp only [joinFields, Option.ite_none_left_eq_some, Option.some.injEq, List.any_eq_true,
      List.contains_iff_mem, not_exists, not_and] at h
    obtain ⟨hfree, rfl⟩ := h
    refine List.splitOn_intercalate 0 (fun l hl => ?_) (by simpa using hne)
    obtain ⟨t, ht, rfl⟩ := List.mem_map.1 hl
    exact hfree t ht
  exact List.map_injective_iff.2 utf8_injective ((hsplit hps hp).symm.trans (hsplit hqs hq))

section Keys

variable (H : Host)

/-- `smtKey` -/
def smtKey (domainTag : String) (fields : List String) : Option Digest :=
  (joinFields (domainTag :: fields)).map H.sha256

/-- `balanceKey` -/
def balanceKey (chain network address tick : String) : Option Digest :=
  smtKey H "XCHAIN_BAL" [chain, network, address, tick]

/-- `escrowKey` -/
def escrowKey (chain network address tick : String) : Option Digest :=
  smtKey H "XCHAIN_ESC" [chain, network, address, tick]

/-- `stakeKey` -/
def stakeKey (pubkey capability : String) : Option Digest :=
  smtKey H "XCHAIN_STK" [pubkey, capability]

/-- `contractStateKey` -/
def contractStateKey (chain network contractIndex stateKey : String) : Option Digest :=
  smtKey H "XCHAIN_CST" [chain, network, contractIndex, stateKey]

/-- The preimage of an amount leaf. -/
def amountLeafPreimage (amount : String) : Bytes := 0 :: utf8 amount

/-- `amountLeaf` -/
def amountLeaf (amount : String) : Option Digest :=
  (canonicalAmount amount).map fun a => leafHash H (utf8 a)

/-- The key of the total stake of a capability. -/
def STAKE_TOTAL_PUBKEY : String := "__total__"

/-- `stakeMemberLeaf` -/
def stakeMemberLeaf (source : String) (weight : Js) : Option Digest := do
  let w ← canonicalAmountJs weight
  let b ← joinFields ["STK", source, w]
  return leafHash H b

/-- `stakeTotalLeaf` -/
def stakeTotalLeaf (total : Js) : Option Digest := do
  let t ← canonicalAmountJs total
  let b ← joinFields ["STKTOTAL", t]
  return leafHash H b

end Keys

end XChainSdk
