import XChainSdk.Contract.ChunkHelper
import XChainSdk.Js.Blanks
import XChainSdk.Js.Doubles
import XChainSdk.Js.Numerals
import XChainSdk.Lib.Dict

/-!
# The numbers of an action on the wire

Every number that a caller hands over is rewritten in plain notation before the action is composed.

* `setNumberFormats` : the rewriting, field by field.
* `isValidAmountFormat` : the amounts that a validator accepts.
* `denoted` : the number that a value denotes.
* `setNumberFormats_exact` : **the fields keep their numbers, a second pass changes nothing, and
  what is not a number stays as it is**.
-/

namespace XChainSdk

open Js

/-- The fields that hold numbers. -/
def NUMBER_FIELDS : List String :=
  ["ALLOW_LIST", "AMOUNT", "BALANCES", "BLOCK_LIST", "BROADCAST_ACTION_INDEX", "CALLBACK_AMOUNT",
    "CALLBACK_BLOCK", "COIN1_ACTION_INDEX", "CONTRACT_ACTION_INDEX", "CONTROLLER",
    "COIN2_ACTION_INDEX", "COOLDOWN_BLOCKS", "DECIMALS", "DEPOSIT", "DISPENSER_ACTION_INDEX", "EDIT",
    "ENCRYPTION_METHOD", "EXPIRATION", "FEE", "GET_AMOUNT", "GAS_ESCROW", "GAS_LIMIT",
    "GIVE_AMOUNT", "GIVE_ESCROW", "LIST_ACTION_INDEX", "MAX_SUPPLY", "MAX_MINT", "MIN_AMOUNT", "MINT_ADDRESS_MAX",
    "MINT_START_BLOCK", "MINT_STOP_BLOCK", "MINT_SUPPLY", "ORDER_ACTION_INDEX", "OWNERSHIPS",
    "QUANTITY", "RESUME_BLOCK", "SWAP_ACTION_INDEX", "TIER", "TRANSFER_SUPPLY", "TYPE", "UNBIND",
    "VALUE"]

def MAX_DECIMALS : ℕ := 18

/-- One round of the loop of `setNumberFormats`. -/
def formatField (M : MathJs) (data : Dict String Js) (name : String) :
    Except ComposeError (Dict String Js) :=
  match data.get? name with
  | none => .ok data
  | some value => (numberFormat M name value).map (data.set name)

/-- `setNumberFormats` -/
def setNumberFormats (M : MathJs) (data : Dict String Js) : Except ComposeError (Dict String Js) :=
  NUMBER_FIELDS.foldlM (formatField M) data

/-- `isValidAmountFormat` of an amount that is text. -/
def isValidAmountFormat (decimals : Js) (amount : String) : Bool :=
  let divisible := decide (decimals.parseInt ≠ .fin 0)
  match amount.toList.splitOn '.' with
  | [] => false
  | int :: parts =>
    let int := String.ofList int
    let sats := String.ofList (parts.headD [])
    if amount.toList.head? = some '-' ∨ 1 < parts.length then false
    else if !divisible && isNumeric (.str int) && int == amount then true
    else divisible && isNumeric (.str int) &&
      (sats == "" || isNumeric (.str sats) && !decimals.parseInt.lt (.fin (utf16Length sats)))

/-! ### The fields -/

section Loop

variable {M : MathJs}

theorem trim_toFixed {q : ℚ} (h : IsDecimal q) : trim (toFixed q) = toFixed q := by
  obtain ⟨neg, ip, fs, hip, -, hfs, htext, -⟩ := (spells_toFixed h).signed
  rw [htext, trim, String.toList_ofList, trim_signedText hip hfs]

/-- A value in plain notation is rewritten as itself. -/
theorem numberFormat_toFixedText {x : JsNum} (hx : ∀ q, x = .fin q → IsDecimal q) (name : String) :
    numberFormat M name (.str x.toFixedText) = .ok (.str x.toFixedText) := by
  cases x with
  | nan =>
    simp [numberFormat, JsNum.toFixedText, show isNumeric (.str "NaN") = false by decide]
  | inf neg =>
    cases neg
    · simp [numberFormat, JsNum.toFixedText,
        show isNumeric (.str "Infinity") = false by decide]
    · simp [numberFormat, JsNum.toFixedText,
        show isNumeric (.str "-Infinity") = false by decide]
  | fin q =>
    have hdec := hx q rfl
    unfold numberFormat
    split
    · rfl
    · simp [isRounded, JsNum.toFixedText, trim_toFixed hdec, M.bignumber_toFixed q hdec]

theorem numberFormat_idem {name : String} {value v : Js} (h : numberFormat M name value = .ok v) :
    numberFormat M name v = .ok v := by
  have hsame := h
  unfold numberFormat at h
  split at h
  · cases h
    exact hsame
  split at h
  · cases h
  split at h
  · cases h
  · next x hx =>
    cases h
    refine numberFormat_toFixedText (fun q hq => ?_) name
    subst hq
    exact M.isDecimal_bignumber _ q hx

/-- What one round of the loop does: nothing at other names, and no name is new. -/
theorem formatField_spec {data data' : Dict String Js} {name : String}
    (h : formatField M data name = .ok data') : data'.keys = data.keys ∧
      (∀ value, data.get? name = some value →
        ∃ v, numberFormat M name value = .ok v ∧ data'.get? name = some v) ∧
      ∀ other, other ≠ name → data'.get? other = data.get? other := by
  unfold formatField at h
  split at h
  · next hnone =>
    cases h
    exact ⟨rfl, fun value hvalue => by simp [hnone] at hvalue, fun _ _ => rfl⟩
  · next value hvalue =>
    obtain ⟨v, hv, rfl⟩ : ∃ v, numberFormat M name value = .ok v ∧ data.set name v = data' := by
      cases hf : numberFormat M name value with
      | error e => simp [hf, Except.map] at h
      | ok v => exact ⟨v, rfl, by simpa [hf, Except.map] using h⟩
    refine ⟨Dict.keys_set (Dict.mem_keys.2 ⟨value, hvalue⟩) v, fun w hw => ?_, fun other hne => ?_⟩
    · rw [hvalue] at hw
      cases hw
      exact ⟨v, hv, by rw [Dict.get?_set, if_pos rfl]⟩
    · rw [Dict.get?_set, if_neg hne]

/-- The induction is on the names that are left: none of them was visited before. -/
theorem foldlM_formatField {names : List String} (hnodup : names.Nodup) {data out : Dict String Js}
    (h : names.foldlM (formatField M) data = .ok out) : out.keys = data.keys ∧
      (∀ name ∈ names, ∀ value, data.get? name = some value →
        ∃ v, numberFormat M name value = .ok v ∧ out.get? name = some v) ∧
      ∀ other, other ∉ names → out.get? other = data.get? other := by
  induction names generalizing data with
  | nil =>
    cases h
    exact ⟨rfl, by simp, fun _ _ => rfl⟩
  | cons name names ih =>
    rw [List.foldlM_cons] at h
    cases hstep : formatField M data name with
    | error e =>
      rw [hstep] at h
      cases h
    | ok mid =>
      rw [hstep] at h
      obtain ⟨hfresh, hnodup⟩ := List.nodup_cons.1 hnodup
      obtain ⟨hkeys, hname, hothers⟩ := formatField_spec hstep
      obtain ⟨hkeys', hnames', hothers'⟩ := ih hnodup h
      refine ⟨hkeys'.trans hkeys, ?_, ?_⟩
      · intro other hmem value hvalue
        rcases List.mem_cons.1 hmem with rfl | hmem
        · obtain ⟨v, hv, hget⟩ := hname value hvalue
          exact ⟨v, hv, (hothers' other hfresh).trans hget⟩
        · have hne : other ≠ name := fun heq => hfresh (heq ▸ hmem)
          exact hnames' other hmem value ((hothers other hne).trans hvalue)
      · intro other hmem
        obtain ⟨hne, hmem⟩ := not_or.1 (fun hor => hmem (List.mem_cons.2 hor))
        exact (hothers' other hmem).trans (hothers other hne)

/-- Fields that are rewritten as themselves are left alone. -/
theorem foldlM_formatField_eq_self {names : List String} {data : Dict String Js}
    (h : ∀ name ∈ names, ∀ value, data.get? name = some value →
      numberFormat M name value = .ok value) : names.foldlM (formatField M) data = .ok data := by
  induction names with
  | nil => rfl
  | cons name names ih =>
    have hstep : formatField M data name = .ok data := by
      unfold formatField
      split
      · rfl
      · next value hvalue =>
        rw [h name List.mem_cons_self value hvalue, Except.map, Dict.set_eq_self hvalue]
    rw [List.foldlM_cons, hstep]
    exact ih fun other hmem => h other (List.mem_cons_of_mem _ hmem)

theorem setNumberFormats_idem {data out : Dict String Js}
    (h : setNumberFormats M data = .ok out) : setNumberFormats M out = .ok out := by
  obtain ⟨hkeys, hnames, -⟩ := foldlM_formatField (by decide) h
  refine foldlM_formatField_eq_self fun name hmem v hv => ?_
  have hkey : name ∈ data.keys := hkeys ▸ Dict.mem_keys.2 ⟨v, hv⟩
  obtain ⟨value, hvalue⟩ := Dict.mem_keys.1 hkey
  obtain ⟨v', hformat, hget⟩ := hnames name hmem value hvalue
  rw [hv] at hget
  cases hget
  exact numberFormat_idem hformat

end Loop

/-! ### What the values denote -/

/-- The number that a value denotes: an integer is itself, a fraction is the decimal that it prints
as, and a text is what it says. -/
def denoted : Js → Option ℚ
  | .bigint z => some z
  | .num (.fin q) => if q.den = 1 then some q else exactNumber (numberToString (.fin q))
  | .num _ => none
  | x => exactNumber x.toText

theorem parseFloatText_of_trimChars_eq_nil {s : String} (h : trimChars s.toList = []) :
    parseFloatText s = .nan := by
  obtain ⟨ws, ws', hws, hws', htext⟩ := exists_trim s.toList
  rw [h, List.append_nil] at htext
  have hs : s = String.ofList (ws ++ [] ++ ws') := by
    rw [List.append_nil, ← htext, String.ofList_toList]
  rw [hs, parseFloatText_padded hws hws']
  decide

theorem exists_exactNumber_of_isNumeric {s : String} (hfloat : parseFloatText s ≠ .nan)
    (hfin : (stringToNumber s).isFinite = true) : ∃ q, exactNumber s = some q :=
  exists_exactNumber (fun hnil => hfloat (parseFloatText_of_trimChars_eq_nil hnil)) hfin

/-- A numeric value denotes a number, which is what its text says. -/
theorem exists_denoted {value : Js} (hnum : isNumeric value = true)
    (hround : isRounded value = false) :
    ∃ q, denoted value = some q ∧ exactNumber value.toText = some q := by
  have hparts : (∃ z, value = .bigint z) ∨
      parseFloatText value.toText ≠ .nan ∧ value.toNumber.isFinite = true := by
    cases value <;> first | exact .inl ⟨_, rfl⟩ | exact .inr (by simpa [isNumeric] using hnum)
  rcases hparts with ⟨z, rfl⟩ | ⟨hfloat, hfin⟩
  · exact ⟨z, rfl, exactNumber_intText z⟩
  cases value with
  | undefined => exact absurd (by decide : parseFloatText "undefined" = .nan) hfloat
  | null => exact absurd (by decide : parseFloatText "null" = .nan) hfloat
  | bool b =>
    cases b
    · exact absurd (by decide : parseFloatText "false" = .nan) hfloat
    · exact absurd (by decide : parseFloatText "true" = .nan) hfloat
  | bigint z => exact ⟨z, rfl, exactNumber_intText z⟩
  | num x =>
    cases x with
    | nan => cases hfin
    | inf neg => cases hfin
    | fin q =>
      obtain ⟨p, hp, hint⟩ := exactNumber_numberToString q
      by_cases hden : q.den = 1
      · have hsmall : ¬ 2 ^ 53 ≤ |q| := by
          simp only [isRounded, Bool.or_eq_false_iff, decide_eq_false_iff_not] at hround
          exact fun hbig => hround.1 ⟨hden, hbig⟩
        rw [hint hden (not_le.1 hsmall).le] at hp
        exact ⟨q, if_pos hden, hp⟩
      · exact ⟨p, (if_neg hden).trans hp, hp⟩
  | str s =>
    obtain ⟨q, hq⟩ := exists_exactNumber_of_isNumeric hfloat hfin
    exact ⟨q, hq, hq⟩
  | arr xs =>
    obtain ⟨q, hq⟩ := exists_exactNumber_of_isNumeric hfloat hfin
    exact ⟨q, hq, hq⟩
  | obj fs =>
    obtain ⟨q, hq⟩ := exists_exactNumber_of_isNumeric hfloat hfin
    exact ⟨q, hq, hq⟩

/-! ### The amounts that a validator accepts -/

/-- A fraction of `d` places is written with `d` digits at most. -/
theorem length_fracDigits_le (n d : ℕ) (r : ℚ) (h0 : 0 ≤ r) (h1 : r < 1)
    (hz : ∃ z : ℤ, r * 10 ^ d = z) : (fracDigits n r).length ≤ d := by
  induction n generalizing r d with
  | zero => simp [fracDigits]
  | succ n ih =>
    unfold fracDigits
    split
    · simp
    · next hr =>
      obtain ⟨z, hz⟩ := hz
      cases d with
      | zero =>
        -- an integer below one is zero
        have hint : r = z := by simpa using hz
        rw [hint] at h0 h1 hr
        have hz0 : z = 0 := by
          have hlow : 0 ≤ z := by exact_mod_cast h0
          have hhigh : z < 1 := by exact_mod_cast h1
          omega
        exact absurd (by rw [hz0]; simp) hr
      | succ d =>
        have hfloor : (⌊r * 10⌋ : ℚ) ≤ r * 10 := Int.floor_le _
        have hlt : r * 10 < ⌊r * 10⌋ + 1 := Int.lt_floor_add_one _
        rw [List.length_cons, Nat.add_le_add_iff_right]
        refine ih d (r * 10 - ⌊r * 10⌋) (by linarith) (by linarith) ⟨z - ⌊r * 10⌋ * 10 ^ d, ?_⟩
        push_cast
        rw [← hz]
        ring

theorem isFinite_of_le {x y : ℚ} (h0 : 0 ≤ x) (h : x ≤ y) (hy : (toDouble y).isFinite = true) :
    (toDouble x).isFinite = true := by
  have hlow := toDouble_mono h0
  have hhigh := toDouble_mono h
  generalize toDouble x = a at hlow hhigh ⊢
  generalize toDouble y = b at hy hhigh
  have hzero : toDouble 0 = .fin 0 := by simpa using toDouble_natCast (n := 0) (by decide)
  rw [hzero] at hlow
  rcases a with _ | (_ | _) | a <;> rcases b with _ | (_ | _) | b <;>
    simp_all [JsNum.le, JsNum.isFinite]

theorem isNumeric_digits {ds : List Char} (hds : AllDigits ds) (hne : ds ≠ []) :
    isNumeric (.str (String.ofList ds)) = (toDouble (digitsValue ds)).isFinite := by
  have hempty : AllDigits [] := by simp [AllDigits]
  have hnumeric := @isNumeric_signedText false _ _ hds hne hempty
  simpa [signedText, pointText, signedValue] using hnumeric

theorem splitOn_pointText {ip fs : List Char} (hip : AllDigits ip) (hfs : AllDigits fs) :
    (pointText ip fs).splitOn '.' = ip :: if fs = [] then [] else [fs] := by
  have hfree {ds : List Char} (hds : AllDigits ds) : '.' ∉ ds := fun hmem =>
    absurd (hds '.' hmem) (by decide)
  by_cases h : fs = []
  · have hsplit := @Tokens.splitOn_join '.' [String.ofList ip] (by simp)
      (by simpa [Tokens.Free] using hfree hip)
    simpa [pointText, h] using hsplit
  · have hsplit := @Tokens.splitOn_join '.' [String.ofList ip, String.ofList fs] (by simp)
      (by simpa [Tokens.Free] using ⟨hfree hip, hfree hfs⟩)
    rw [Tokens.join_cons _ (by simp), Tokens.join_singleton] at hsplit
    simpa [pointText, h] using hsplit

theorem utf16Length_digits {ds : List Char} (hds : AllDigits ds) :
    utf16Length (String.ofList ds) = ds.length := by
  have hone : ds.map (fun c => if c.toNat < 0x10000 then 1 else 2) = List.replicate ds.length 1 := by
    refine List.eq_replicate_iff.2 ⟨by simp, ?_⟩
    intro n hn
    obtain ⟨c, hc, rfl⟩ := List.mem_map.1 hn
    have hdigit := hds c hc
    simp only [Char.isDigit, Bool.and_eq_true, decide_eq_true_eq, ge_iff_le,
      UInt32.le_iff_toNat_le] at hdigit
    have hle : c.toNat ≤ 57 := hdigit.2
    exact if_pos (by omega)
  rw [utf16Length, String.toList_ofList, hone]
  simp

/-- Plain notation of a number that a double holds is accepted as far as its decimals go. -/
theorem isValidAmountFormat_toFixed {q : ℚ} (h0 : 0 ≤ q) (hfin : (toDouble q).isFinite = true)
    {d : ℕ} (hd : d ≤ MAX_DECIMALS) (hq : ∃ z : ℤ, q * 10 ^ d = z) :
    isValidAmountFormat (.num (.fin d)) (toFixed q) = true := by
  have hdec : IsDecimal q := ⟨d, hq⟩
  obtain ⟨z, hz⟩ := hdec.mul_ten_pow_den
  have hr0 : 0 ≤ q - ⌊q⌋ := sub_nonneg.2 (Int.floor_le q)
  have hr1 : q - ⌊q⌋ < 1 := by linarith [Int.lt_floor_add_one q]
  obtain ⟨hfs, hval⟩ := fracDigits_spec q.den (q - ⌊q⌋) hr0 hr1
    ⟨z - ⌊q⌋ * 10 ^ q.den, by push_cast; rw [← hz]; ring⟩
  obtain ⟨w, hw⟩ := hq
  have hlen := length_fracDigits_le q.den d (q - ⌊q⌋) hr0 hr1
    ⟨w - ⌊q⌋ * 10 ^ d, by push_cast; rw [← hw]; ring⟩
  -- The text is the whole part and the digits after the point, which are checked apart.
  have htext : toFixed q = String.ofList (pointText (Nat.toDigits 10 ⌊q⌋.toNat)
      (fracDigits q.den (q - ⌊q⌋))) := by
    rw [toFixed, if_neg (not_lt.2 h0), unsignedFixed]
  generalize fracDigits q.den (q - ⌊q⌋) = fs at hfs hval hlen htext
  have hip := allDigits_toDigits ⌊q⌋.toNat
  have hne : Nat.toDigits 10 ⌊q⌋.toNat ≠ [] := Nat.toDigits_ne_nil
  have hint : isNumeric (.str (String.ofList (Nat.toDigits 10 ⌊q⌋.toNat))) = true := by
    have hvalue : digitsValue (Nat.toDigits 10 ⌊q⌋.toNat) = ⌊q⌋.toNat :=
      Nat.ofDigitChars_ten_toDigits
    rw [isNumeric_digits hip hne, hvalue]
    refine isFinite_of_le (by positivity) ?_ hfin
    rw [← Int.cast_natCast, Int.toNat_of_nonneg (Int.floor_nonneg.2 h0)]
    exact Int.floor_le q
  -- The digits after the point are read as a number of their own, below ten to the `MAX_DECIMALS`.
  have hsats : fs ≠ [] → isNumeric (.str (String.ofList fs)) = true := by
    intro hnil
    rw [isNumeric_digits hfs hnil]
    have hlimit : (toDouble (10 ^ MAX_DECIMALS)).isFinite = true := by decide +kernel
    refine isFinite_of_le (by positivity) ?_ hlimit
    rw [div_eq_iff (by positivity)] at hval
    calc (digitsValue fs : ℚ) = (q - ⌊q⌋) * 10 ^ fs.length := hval
      _ ≤ 1 * 10 ^ fs.length := mul_le_mul_of_nonneg_right hr1.le (by positivity)
      _ ≤ 10 ^ MAX_DECIMALS := by
        rw [one_mul]
        exact pow_le_pow_right₀ (by norm_num) (hlen.trans hd)
  have hdecimals : (Js.num (.fin d)).parseInt = .fin d := by
    have hsmall : d ≤ 2 ^ 53 := hd.trans (by decide)
    rw [Js.parseInt, Js.toText, numberToString_natCast hsmall]
    exact (parseIntText_natText d).trans (toDouble_natCast hsmall)
  have hsign : (pointText (Nat.toDigits 10 ⌊q⌋.toNat) fs).head? ≠ some '-' := by
    obtain ⟨c, cs, hc, hcs⟩ := exists_pointText_cons fs hip hne
    rw [hcs, List.head?_cons]
    rintro hdash
    cases hdash
    exact absurd hc (by decide)
  have hsplit := splitOn_pointText hip hfs
  rw [htext, isValidAmountFormat, String.toList_ofList, hsplit, hdecimals]
  by_cases hnil : fs = []
  · subst hnil
    simp only [pointText, if_true, List.append_nil] at hsign ⊢
    by_cases hd0 : d = 0 <;> simp [hint, hsign, hd0]
  · have hd0 : d ≠ 0 := by
      have hpos := List.length_pos_of_ne_nil hnil
      omega
    simp [hint, hsign, hnil, hd0, hsats hnil, utf16Length_digits hfs, JsNum.lt, hlen]

/-! ### The rewriting -/

/-- The smallest exponent of a big decimal. -/
def MIN_EXPONENT : ℤ := -9000000000000000

/-- The number does not underflow. -/
def InReach (q : ℚ) : Prop := q = 0 ∨ (10 : ℚ) ^ MIN_EXPONENT ≤ |q|

/-- A reader that reads every numeral exactly, as far as its exponents reach. -/
def ReadsNumerals (M : MathJs) : Prop := ∀ s q, exactNumber s = some q → InReach q →
  M.bignumber (trim s) = some (.fin q)

/-- The value is a number that `setNumberFormats` rewrites. -/
def IsNumber (value : Js) : Prop := isPopulated value = true ∧ isNumeric value = true

instance (value : Js) : Decidable (IsNumber value) := inferInstanceAs (Decidable (_ ∧ _))

theorem numberFormat_of_not {M : MathJs} {name : String} {value : Js} (h : ¬ IsNumber value) :
    numberFormat M name value = .ok value := by
  refine if_pos ?_
  cases hp : isPopulated value <;> cases hn : isNumeric value <;> simp_all [IsNumber]

theorem numberFormat_number {M : MathJs} (hM : ReadsNumerals M) {name : String} {value v : Js}
    (hvalue : IsNumber value) (h : numberFormat M name value = .ok v) :
    ∃ q, denoted value = some q ∧ (InReach q → v = .str (toFixed q) ∧ IsDecimal q) := by
  obtain ⟨hpop, hnum⟩ := hvalue
  have hround : isRounded value = false := by
    cases hr : isRounded value with
    | false => rfl
    | true => simp [numberFormat, hpop, hnum, hr] at h
  obtain ⟨q, hq, hexact⟩ := exists_denoted hnum hround
  refine ⟨q, hq, fun hreach => ?_⟩
  have hread := hM _ q hexact hreach
  simp only [numberFormat, hpop, hnum, hround, hread, Bool.not_true, Bool.or_self,
    Bool.false_eq_true, if_false] at h
  cases h
  exact ⟨rfl, M.isDecimal_bignumber _ q hread⟩

/-- **Rewriting the numbers of an action either throws or keeps them.**  Every field that holds a
number denotes the same one afterwards, in plain notation; a validator takes it when it is not
below zero, held by a double and within the decimals.  Nothing else changes, and a second pass
changes nothing at all. -/
theorem setNumberFormats_exact (M : MathJs) (hM : ReadsNumerals M) (data out : Dict String Js)
    (h : setNumberFormats M data = .ok out) :
    out.keys = data.keys ∧ setNumberFormats M out = .ok out ∧
    ∀ name value, data.get? name = some value →
      (¬ (name ∈ NUMBER_FIELDS ∧ IsNumber value) → out.get? name = some value) ∧
      (name ∈ NUMBER_FIELDS → IsNumber value → ∃ q, denoted value = some q ∧ (InReach q →
        out.get? name = some (.str (toFixed q)) ∧ decimalText (toFixed q) = some q ∧
        (0 ≤ q → isNonNegativeDecimal (toFixed q) = true ∧
          ∀ d ≤ MAX_DECIMALS, (∃ z : ℤ, q * 10 ^ d = z) → (toDouble q).isFinite = true →
            isValidAmountFormat (.num (.fin d)) (toFixed q) = true))) := by
  obtain ⟨hkeys, hnames, hothers⟩ := foldlM_formatField (by decide) h
  refine ⟨hkeys, setNumberFormats_idem h, fun name value hvalue => ⟨fun hnot => ?_, ?_⟩⟩
  · by_cases hname : name ∈ NUMBER_FIELDS
    · obtain ⟨v, hv, hget⟩ := hnames name hname value hvalue
      rw [numberFormat_of_not fun hnumber => hnot ⟨hname, hnumber⟩] at hv
      cases hv
      exact hget
    · exact (hothers name hname).trans hvalue
  · intro hname hnumber
    obtain ⟨v, hv, hget⟩ := hnames name hname value hvalue
    obtain ⟨q, hq, hplain⟩ := numberFormat_number hM hnumber hv
    refine ⟨q, hq, fun hreach => ?_⟩
    obtain ⟨rfl, hdec⟩ := hplain hreach
    refine ⟨hget, decimalText_toFixed hdec, fun h0 => ⟨isNonNegativeDecimal_toFixed h0 hdec, ?_⟩⟩
    intro d hd hz hfin
    exact isValidAmountFormat_toFixed h0 hfin hd hz

theorem readsNumerals_numeralMath : ReadsNumerals numeralMath := by
  intro s q hq _
  simp only [numeralMath, exactNumber_trim, hq, Option.map_some]

/-- The fields are rewritten when each of them can be. -/
theorem exists_setNumberFormats {M : MathJs} {data : Dict String Js}
    (h : ∀ name value, data.get? name = some value → ∃ v, numberFormat M name value = .ok v) :
    ∃ out, setNumberFormats M data = .ok out := by
  unfold setNumberFormats
  induction NUMBER_FIELDS generalizing data with
  | nil => exact ⟨data, rfl⟩
  | cons name names ih =>
    obtain ⟨mid, hmid⟩ : ∃ mid, formatField M data name = .ok mid := by
      unfold formatField
      split
      · exact ⟨data, rfl⟩
      · next value hvalue =>
        obtain ⟨v, hv⟩ := h name value hvalue
        exact ⟨_, by rw [hv]; rfl⟩
    obtain ⟨hkeys, hname, hothers⟩ := formatField_spec hmid
    rw [List.foldlM_cons, hmid]
    refine ih fun other value hvalue => ?_
    by_cases hne : other = name
    · subst hne
      obtain ⟨w, hw⟩ := Dict.mem_keys.1 (hkeys ▸ Dict.mem_keys.2 ⟨value, hvalue⟩)
      obtain ⟨v, hv, hget⟩ := hname w hw
      rw [hvalue] at hget
      cases hget
      exact ⟨value, numberFormat_idem hv⟩
    · exact h other value (by rw [← hothers other hne, hvalue])

/-- Only a number that a double has rounded is refused. -/
theorem exists_numberFormat {M : MathJs} (hM : ReadsNumerals M) (name : String) {value : Js}
    (hround : isRounded value = false) (hreach : ∀ q, denoted value = some q → InReach q) :
    ∃ v, numberFormat M name value = .ok v := by
  by_cases hnumber : IsNumber value
  · obtain ⟨q, hq, hexact⟩ := exists_denoted hnumber.2 hround
    have hread := hM _ q hexact (hreach q hq)
    exact ⟨.str (toFixed q), by
      simp [numberFormat, hnumber.1, hnumber.2, hround, hread, JsNum.toFixedText]⟩
  · exact ⟨value, numberFormat_of_not hnumber⟩

theorem inReach_of_zpow_le {q : ℚ} (h : (10 : ℚ) ^ (-400 : ℤ) ≤ |q|) : InReach q :=
  .inr ((zpow_le_zpow_right₀ (by norm_num) (by decide)).trans h)

theorem setNumberFormats_exponent : ∃ out, setNumberFormats numeralMath
      ⟨[("AMOUNT", .str "1e-8"), ("MEMO", .str "1e-8")], by decide⟩ = .ok out ∧
    out.get? "AMOUNT" = some (.str (toFixed (1 / 10 ^ 8))) ∧
    out.get? "MEMO" = some (.str "1e-8") := by
  have hdenoted : denoted (.str "1e-8") = some (1 / 10 ^ 8) := by decide +kernel
  have hreach : InReach (1 / 10 ^ 8) := inReach_of_zpow_le (by decide +kernel)
  obtain ⟨out, hout⟩ := @exists_setNumberFormats numeralMath
    ⟨[("AMOUNT", .str "1e-8"), ("MEMO", .str "1e-8")], by decide⟩ fun name value hvalue => by
      have hmem := Dict.mem_entries_of_get? hvalue
      have hsame : value = .str "1e-8" := by
        rcases List.mem_cons.1 hmem with h | h
        · exact (Prod.mk.inj h).2
        · exact (Prod.mk.inj (List.mem_singleton.1 h)).2
      subst hsame
      refine exists_numberFormat readsNumerals_numeralMath name rfl fun q hq => ?_
      rw [hdenoted] at hq
      exact Option.some.inj hq ▸ hreach
  obtain ⟨-, -, hfields⟩ := setNumberFormats_exact numeralMath readsNumerals_numeralMath _ out hout
  refine ⟨out, hout, ?_, (hfields "MEMO" _ rfl).1 (by decide)⟩
  obtain ⟨q, hq, hplain⟩ := (hfields "AMOUNT" _ rfl).2 (by decide) ⟨by decide, by decide +kernel⟩
  rw [hdenoted] at hq
  cases hq
  exact (hplain hreach).1

/-- The double nearest to one tenth is written as one tenth, which it is not, and a number below
zero is written although no validator takes it. -/
theorem setNumberFormats_not_exact : ∃ out, setNumberFormats numeralMath
      ⟨[("AMOUNT", .num (.fin (3602879701896397 / 36028797018963968))), ("FEE", .str "-5")],
        by decide⟩ = .ok out ∧
    out.get? "AMOUNT" = some (.str "0.1") ∧
    decimalText "0.1" ≠ some (3602879701896397 / 36028797018963968) ∧
    out.get? "FEE" = some (.str "-5") ∧ isValidAmountFormat (.num (.fin 8)) "-5" = false := by
  have hread : ∀ name, numberFormat numeralMath name
        (.num (.fin (3602879701896397 / 36028797018963968))) = .ok (.str "0.1") ∧
      numberFormat numeralMath name (.str "-5") = .ok (.str "-5") := by
    intro name
    have hnum : isNumeric (.num (.fin (3602879701896397 / 36028797018963968))) = true ∧
        isRounded (.num (.fin (3602879701896397 / 36028797018963968))) = false ∧
        numeralMath.bignumber (trim (toText (.num (.fin (3602879701896397 / 36028797018963968))))) =
          some (.fin (1 / 10)) ∧ toFixed (1 / 10) = "0.1" := by decide +kernel
    have htext : isNumeric (.str "-5") = true ∧
        numeralMath.bignumber (trim "-5") = some (.fin (-5)) ∧ toFixed (-5) = "-5" := by
      decide +kernel
    obtain ⟨h1, h2, h3, h4⟩ := hnum
    obtain ⟨h5, h6, h7⟩ := htext
    exact ⟨by simp only [numberFormat, isPopulated, h1, h2, h3, h4, JsNum.toFixedText]; rfl,
      by simp [numberFormat, isRounded, h5, h6, h7, JsNum.toFixedText]⟩
  obtain ⟨out, hout⟩ := @exists_setNumberFormats numeralMath
    ⟨[("AMOUNT", .num (.fin (3602879701896397 / 36028797018963968))), ("FEE", .str "-5")],
      by decide⟩ fun name value hvalue => by
      rcases List.mem_cons.1 (Dict.mem_entries_of_get? hvalue) with h | h
      · exact ⟨_, (Prod.mk.inj h).2 ▸ (hread name).1⟩
      · exact ⟨_, (Prod.mk.inj (List.mem_singleton.1 h)).2 ▸ (hread name).2⟩
  obtain ⟨-, hnames, -⟩ := foldlM_formatField (by decide) hout
  obtain ⟨v, hv, hamount⟩ := hnames "AMOUNT" (by decide) _ rfl
  obtain ⟨w, hw, hfee⟩ := hnames "FEE" (by decide) _ rfl
  rw [(hread "AMOUNT").1] at hv
  rw [(hread "FEE").2] at hw
  cases hv
  cases hw
  exact ⟨out, hout, hamount, by decide +kernel, hfee, by decide⟩

end XChainSdk
