import XChainSdk.Lib.Loop
import XChainSdk.Merkle.Primitives

/-!
# Canonical amounts

* `digitsValue_inj` : digits of one length are determined by their value.
* `canonicalAmount_eq_some_iff` : a canonical amount is the text of its number of units.
* `sumCanonicalAmounts_eq` : a sum is accepted when every amount is.
* `canonicalAmounts_exact` : canonical forms are equal exactly when the amounts are, and sums are
  exact in every order and grouping.
-/

namespace XChainSdk

open Hash Js

/-! ### Digits -/

theorem digitsValue_cons (c : Char) (cs : List Char) :
    digitsValue (c :: cs) = digitsValue [c] * 10 ^ cs.length + digitsValue cs := by
  rw [← List.singleton_append, digitsValue_append]

theorem digitsValue_singleton {c : Char} (hc : c.isDigit = true) :
    digitsValue [c] = c.toNat - 48 ∧ 48 ≤ c.toNat ∧ c.toNat ≤ 57 := by
  simp only [Char.isDigit, Bool.and_eq_true, decide_eq_true_eq, ge_iff_le,
    UInt32.le_iff_toNat_le] at hc
  refine ⟨?_, hc.1, hc.2⟩
  simp [digitsValue, Nat.ofDigitChars_cons]

theorem digitsValue_lt {ds : List Char} (h : AllDigits ds) : digitsValue ds < 10 ^ ds.length := by
  induction ds with
  | nil => decide
  | cons c cs ih =>
    obtain ⟨hval, hlow, hhigh⟩ := digitsValue_singleton (h c (List.mem_cons_self ..))
    have hrest := ih fun d hd => h d (List.mem_cons_of_mem _ hd)
    rw [digitsValue_cons, hval, List.length_cons, pow_succ]
    have hle : (c.toNat - 48) * 10 ^ cs.length ≤ 9 * 10 ^ cs.length :=
      Nat.mul_le_mul_right _ (by omega)
    omega

/-- Digits of one length are determined by their value. -/
theorem digitsValue_inj {ds es : List Char} (hds : AllDigits ds) (hes : AllDigits es)
    (hlen : ds.length = es.length) (h : digitsValue ds = digitsValue es) : ds = es := by
  induction ds generalizing es with
  | nil => exact (List.length_eq_zero_iff.1 hlen.symm).symm
  | cons c cs ih =>
    cases es with
    | nil => cases hlen
    | cons e es =>
      have hcs : AllDigits cs := fun d hd => hds d (List.mem_cons_of_mem _ hd)
      have hes' : AllDigits es := fun d hd => hes d (List.mem_cons_of_mem _ hd)
      have hlen' : cs.length = es.length := by simpa using hlen
      obtain ⟨hc, hc1, hc2⟩ := digitsValue_singleton (hds c (List.mem_cons_self ..))
      obtain ⟨he, he1, he2⟩ := digitsValue_singleton (hes e (List.mem_cons_self ..))
      rw [digitsValue_cons, digitsValue_cons e, hc, he, hlen'] at h
      have h1 := digitsValue_lt hcs
      have h2 := digitsValue_lt hes'
      rw [hlen'] at h1
      have hpos : 0 < 10 ^ es.length := by positivity
      -- the first digit is the quotient, the rest is the remainder
      have hfirst : c.toNat - 48 = e.toNat - 48 := by
        have hq := congrArg (· / 10 ^ es.length) h
        simpa only [Nat.mul_comm _ (10 ^ es.length), Nat.mul_add_div hpos, Nat.div_eq_of_lt h1,
          Nat.div_eq_of_lt h2, Nat.add_zero] using hq
      have hrest : digitsValue cs = digitsValue es := by
        rw [hfirst] at h
        omega
      have hchar : c = e := Char.toNat_inj.1 (by omega)
      rw [hchar, ih hcs hes' hlen' hrest]

/-- Digits without leading zeros are determined by their value. -/
theorem stripped_inj {ds es : List Char} (hds : AllDigits ds) (hes : AllDigits es) (hd : ds ≠ [])
    (he : es ≠ []) (hdstrip : stripZeros ds = ds) (hestrip : stripZeros es = es)
    (h : digitsValue ds = digitsValue es) : ds = es := by
  wlog hle : ds.length ≤ es.length generalizing ds es
  · exact (this hes hds he hd hestrip hdstrip h.symm (by omega)).symm
  have hpad : List.replicate (es.length - ds.length) '0' ++ ds = es := by
    refine digitsValue_inj ?_ hes ?_ ?_
    · intro c hc
      rcases List.mem_append.1 hc with hc | hc
      · rw [List.eq_of_mem_replicate hc]
        decide
      · exact hds c hc
    · rw [List.length_append, List.length_replicate]
      omega
    · rw [digitsValue_append, digitsValue_replicate_zero, Nat.zero_mul, Nat.zero_add, h]
  cases hk : es.length - ds.length with
  | zero =>
    rw [hk] at hpad
    exact hpad
  | succ k =>
    -- a longer text would start with a zero that is not the last digit
    exfalso
    rw [hk, List.replicate_succ, List.cons_append] at hpad
    have hlonger := congrArg List.length hestrip
    rw [← hpad] at hlonger
    obtain ⟨c, cs, hcs⟩ := List.exists_cons_of_ne_nil
      (show List.replicate k '0' ++ ds ≠ [] by simp [hd])
    have hc : c.isDigit = true := hes c (by rw [← hpad, hcs]; simp)
    rw [hcs, stripZeros, if_pos hc] at hlonger
    have hshort := (stripZeros_sublist (c :: cs)).length_le
    simp only [List.length_cons] at hlonger hshort
    omega

/-! ### Canonical forms -/

theorem canonicalParts_inj {s t : String} {p q : List Char × List Char}
    (hp : canonicalParts s = some p) (hq : canonicalParts t = some q)
    (h : amountUnits s = amountUnits t) : p = q := by
  obtain ⟨ip, f⟩ := p
  obtain ⟨jp, g⟩ := q
  obtain ⟨hip, hine, histrip, hf, hflen⟩ := canonicalParts_eq_some hp
  obtain ⟨hjp, hjne, hjstrip, hg, hglen⟩ := canonicalParts_eq_some hq
  have hunits : digitsValue ip * 10 ^ 18 + digitsValue f =
      digitsValue jp * 10 ^ 18 + digitsValue g := by
    rw [amountUnits, amountUnits, hp, hq] at h
    exact Option.some.inj h
  have h1 := digitsValue_lt hf
  have h2 := digitsValue_lt hg
  rw [hflen] at h1
  rw [hglen] at h2
  have hint : digitsValue ip = digitsValue jp := by omega
  have hfrac : digitsValue f = digitsValue g := by omega
  rw [stripped_inj hip hjp hine hjne histrip hjstrip hint,
    digitsValue_inj hf hg (hflen.trans hglen.symm) hfrac]

theorem isSome_canonicalAmount_iff {s : String} :
    (canonicalAmount s).isSome ↔ (amountUnits s).isSome := by
  rw [canonicalAmount, amountUnits, Option.isSome_map, Option.isSome_map]

/-- Amounts with the same number of units have the same canonical form. -/
theorem canonicalAmount_congr {s t : String} (h : amountUnits s = amountUnits t) :
    canonicalAmount s = canonicalAmount t := by
  cases hs : canonicalParts s with
  | none =>
    have ht : canonicalParts t = none := by
      rw [amountUnits, hs, Option.map_none] at h
      exact Option.map_eq_none_iff.1 h.symm
    rw [canonicalAmount, canonicalAmount, hs, ht]
  | some p =>
    obtain ⟨q, hq⟩ : ∃ q, canonicalParts t = some q := by
      rw [amountUnits, hs, Option.map_some] at h
      obtain ⟨q, hq, -⟩ := Option.map_eq_some_iff.1 h.symm
      exact ⟨q, hq⟩
    rw [canonicalAmount, canonicalAmount, hs, hq, canonicalParts_inj hs hq h]

/-- The text of a number of units is canonical. -/
theorem canonicalAmount_unitsText (n : ℕ) : canonicalAmount (unitsText n) = some (unitsText n) := by
  obtain ⟨ip, f, hparts, -, htext⟩ := canonicalParts_unitsText n
  rw [canonicalAmount, hparts, htext]
  rfl

/-- A canonical amount is the text of its number of units. -/
theorem canonicalAmount_eq_some_iff {s c : String} :
    canonicalAmount s = some c ↔ ∃ n, amountUnits s = some n ∧ c = unitsText n := by
  have hforward {n : ℕ} (hn : amountUnits s = some n) : canonicalAmount s = some (unitsText n) := by
    rw [← canonicalAmount_unitsText n]
    exact canonicalAmount_congr (hn.trans (amountUnits_unitsText n).symm)
  constructor
  · intro h
    obtain ⟨n, hn⟩ := Option.isSome_iff_exists.1
      (isSome_canonicalAmount_iff.1 (Option.isSome_iff_exists.2 ⟨c, h⟩))
    exact ⟨n, hn, Option.some.inj (h.symm.trans (hforward hn))⟩
  · rintro ⟨n, hn, rfl⟩
    exact hforward hn

/-! ### Amounts as numbers -/

/-- The number that an amount denotes. -/
def amountValue (s : String) : Option ℚ := decimalText (trim s)

theorem amountValue_of_amountUnits {s : String} {n : ℕ} (h : amountUnits s = some n) :
    amountValue s = some (n / 10 ^ 18 : ℚ) := decimalText_of_amountUnits h

theorem amountUnits_eq_iff {s t : String} {n m : ℕ} (hs : amountUnits s = some n)
    (ht : amountUnits t = some m) : n = m ↔ amountValue s = amountValue t := by
  rw [amountValue_of_amountUnits hs, amountValue_of_amountUnits ht, Option.some.injEq,
    div_left_inj' (by positivity), Nat.cast_inj]

/-! ### Sums -/

/-- The units of an amount that is accepted. -/
def unitsOf (s : String) : ℕ := (amountUnits s).getD 0

theorem mapM_amountUnits_eq (amounts : List String) : amounts.mapM amountUnits =
    if ∀ a ∈ amounts, (amountUnits a).isSome then some (amounts.map unitsOf) else none := by
  induction amounts with
  | nil => rfl
  | cons a amounts ih =>
    rw [List.mapM_cons, ih]
    cases ha : amountUnits a with
    | none => simp [ha]
    | some n =>
      by_cases hrest : ∀ b ∈ amounts, (amountUnits b).isSome
      · rw [if_pos hrest, if_pos]
        · simp [unitsOf, ha]
        · intro b hb
          rcases List.mem_cons.1 hb with rfl | hb
          · rw [ha]
            rfl
          · exact hrest b hb
      · rw [if_neg hrest, if_neg]
        · rfl
        · exact fun hall => hrest fun b hb => hall b (List.mem_cons_of_mem _ hb)

/-- A sum is accepted when every amount is. -/
theorem sumCanonicalAmounts_eq (amounts : List String) : sumCanonicalAmounts amounts =
    if ∀ a ∈ amounts, (amountUnits a).isSome then some (unitsText (amounts.map unitsOf).sum)
    else none := by
  rw [sumCanonicalAmounts, mapM_amountUnits_eq]
  split_ifs
  · rfl
  · rfl

theorem sum_map_amountValue {amounts : List String}
    (h : ∀ a ∈ amounts, (amountUnits a).isSome) :
    (((amounts.map unitsOf).sum : ℕ) : ℚ) / 10 ^ 18 =
      (amounts.map fun a => (amountValue a).getD 0).sum := by
  induction amounts with
  | nil => simp
  | cons a amounts ih =>
    obtain ⟨n, hn⟩ := Option.isSome_iff_exists.1 (h a (List.mem_cons_self ..))
    rw [List.map_cons, List.sum_cons, List.map_cons, List.sum_cons,
      ← ih fun b hb => h b (List.mem_cons_of_mem _ hb), amountValue_of_amountUnits hn, unitsOf, hn]
    push_cast
    rw [Option.getD_some, Option.getD_some, add_div]

/-- The sums of groups have the same sum as everything together. -/
theorem sumCanonicalAmounts_flatten {groups : List (List String)} {totals : List String}
    (h : groups.mapM sumCanonicalAmounts = some totals) :
    sumCanonicalAmounts totals = sumCanonicalAmounts groups.flatten := by
  have hgroups := Loop.mapM_eq_some_iff.1 h
  clear h
  have hparts : (∀ a ∈ totals, (amountUnits a).isSome) ∧
      (∀ a ∈ groups.flatten, (amountUnits a).isSome) ∧
      (totals.map unitsOf).sum = (groups.flatten.map unitsOf).sum := by
    induction hgroups with
    | nil => simp
    | @cons group total groups totals hgroup _ ih =>
      obtain ⟨h1, h2, h3⟩ := ih
      rw [sumCanonicalAmounts_eq] at hgroup
      split_ifs at hgroup with hall
      obtain rfl := Option.some.inj hgroup
      refine ⟨fun a ha => ?_, fun a ha => ?_, ?_⟩
      · rcases List.mem_cons.1 ha with rfl | ha
        · rw [amountUnits_unitsText]
          rfl
        · exact h1 a ha
      · rw [List.flatten_cons] at ha
        rcases List.mem_append.1 ha with ha | ha
        · exact hall a ha
        · exact h2 a ha
      · rw [List.map_cons, List.sum_cons, h3, List.flatten_cons, List.map_append, List.sum_append,
          unitsOf, amountUnits_unitsText]
        rfl
  rw [sumCanonicalAmounts_eq, sumCanonicalAmounts_eq, if_pos hparts.1, if_pos hparts.2.1, hparts.2.2]

/-- Canonical amounts are exact. -/
structure CanonicalAmounts : Prop where
  idempotent : ∀ s c : String, canonicalAmount s = some c → canonicalAmount c = some c
  denotes : ∀ s c : String, canonicalAmount s = some c → (amountValue s).isSome ∧
    amountValue c = amountValue s
  eq_iff : ∀ s t c d : String, canonicalAmount s = some c → canonicalAmount t = some d →
    (c = d ↔ amountValue s = amountValue t)
  sum : ∀ amounts : List String, (∀ a ∈ amounts, (canonicalAmount a).isSome) → ∃ total,
    sumCanonicalAmounts amounts = some total ∧ canonicalAmount total = some total ∧
      amountValue total = some (amounts.map fun a => (amountValue a).getD 0).sum
  order : ∀ xs ys : List String, List.Perm xs ys → sumCanonicalAmounts xs = sumCanonicalAmounts ys
  grouping : ∀ (groups : List (List String)) (totals : List String),
    groups.mapM sumCanonicalAmounts = some totals →
      sumCanonicalAmounts totals = sumCanonicalAmounts groups.flatten

theorem canonicalAmounts_exact : CanonicalAmounts where
  idempotent := fun s c => canonicalAmount_canonicalAmount
  denotes := by
    intro s c h
    obtain ⟨n, hn, rfl⟩ := canonicalAmount_eq_some_iff.1 h
    rw [amountValue_of_amountUnits hn, amountValue_of_amountUnits (amountUnits_unitsText n)]
    exact ⟨rfl, rfl⟩
  eq_iff := by
    intro s t c d hs ht
    obtain ⟨n, hn, rfl⟩ := canonicalAmount_eq_some_iff.1 hs
    obtain ⟨m, hm, rfl⟩ := canonicalAmount_eq_some_iff.1 ht
    rw [← amountUnits_eq_iff hn hm]
    refine ⟨fun h => ?_, fun h => by rw [h]⟩
    have hunits := congrArg amountUnits h
    rw [amountUnits_unitsText, amountUnits_unitsText] at hunits
    exact Option.some.inj hunits
  sum := by
    intro amounts h
    have hall : ∀ a ∈ amounts, (amountUnits a).isSome := fun a ha =>
      isSome_canonicalAmount_iff.1 (h a ha)
    refine ⟨_, by rw [sumCanonicalAmounts_eq, if_pos hall], canonicalAmount_unitsText _, ?_⟩
    rw [amountValue_of_amountUnits (amountUnits_unitsText _), sum_map_amountValue hall]
  order := by
    intro xs ys hperm
    have hiff : (∀ a ∈ xs, (amountUnits a).isSome) ↔ ∀ a ∈ ys, (amountUnits a).isSome :=
      ⟨fun h a ha => h a (hperm.mem_iff.2 ha), fun h a ha => h a (hperm.mem_iff.1 ha)⟩
    rw [sumCanonicalAmounts_eq, sumCanonicalAmounts_eq, (hperm.map unitsOf).sum_eq]
    simp only [hiff]
  grouping := fun groups totals => sumCanonicalAmounts_flatten

example : sumCanonicalAmounts [" 007.5", "0.25"] = some "7.750000000000000000" := by decide

end XChainSdk
