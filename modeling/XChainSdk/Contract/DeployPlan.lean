import XChainSdk.Contract.DeployString

/-!
# The plan of a deploy against its string

The planner weighs a `DEPLOY` that the composer writes later.

* `fitsSingleDeploy_iff`, `deployText_fits_iff` : what the plan reckons, and what the string weighs.
* `overcount` : what the kinds of spelling shift, in bytes; `segmentBytes_plannedSegments` says that
  nothing else does.
* `Straddles` : the shift carries the string over the limit, or back.
* `deploysInChunks_iff` : **the plan is that of the string exactly when it does not**.
-/

namespace XChainSdk

open Js Hash

/-! ### What a deploy weighs -/

section Weight

variable {code : String} {opts : DeployOptions} {wire : String × List String}

/-- The segments of the options as the plan spells them. -/
def plannedSegments (opts : DeployOptions) : List String :=
  let gas := (opts.gasLimit.or (.num (.fin 0))).toText
  let ctor := ctorString opts.constructorParams
  let cooldown := tailField opts.cooldownBlocks
  let slashDst := tailField opts.slashDestination
  if cooldown = "" ∧ slashDst = "" then gas :: if ctor = "" then [] else [ctor]
  else [gas, ctor, cooldown] ++ if slashDst = "" then [] else [slashDst]

theorem utf8ByteSize_deployOverhead (opts : DeployOptions) :
    (deployOverhead opts).utf8ByteSize = 9 + segmentBytes (plannedSegments opts) := by
  have hplain : "DEPLOY|0||".utf8ByteSize = 10 := by decide
  have hstaked : "DEPLOY|1||".utf8ByteSize = 10 := by decide
  have hpipe : "|".utf8ByteSize = 1 := by decide
  have hempty : "".utf8ByteSize = 0 := by decide
  simp only [deployOverhead, plannedSegments, segmentBytes]
  split_ifs <;>
    simp only [String.utf8ByteSize_append, hplain, hstaked, hpipe, hempty, List.map_cons,
      List.map_nil, List.map_append, List.sum_cons, List.sum_nil, List.sum_append] <;>
    omega

theorem fitsSingleDeploy_iff : fitsSingleDeploy code opts = true ↔
    9 + base64Length code + segmentBytes (plannedSegments opts) ≤ 8189 := by
  rw [fitsSingleDeploy, decide_eq_true_eq, utf8ByteSize_deployOverhead, utf8ByteSize_base64,
    OP_RETURN_PUSH_OVERHEAD, MAX_ACTION_DATA_LENGTH]
  omega

theorem compiledPushSize_le_iff {n : ℕ} :
    compiledPushSize n ≤ MAX_ACTION_DATA_LENGTH ↔ n ≤ 8189 := by
  rw [compiledPushSize, MAX_ACTION_DATA_LENGTH]
  split_ifs <;> omega

/-- Whether the string of a deploy fits; an empty source drops its pipe when nothing follows. -/
theorem deployText_fits_iff (hversion : wire.1.utf8ByteSize = 1) :
    compiledPushSize (deployText code wire).utf8ByteSize ≤ MAX_ACTION_DATA_LENGTH ↔
      9 + base64Length code + segmentBytes (Tokens.trimTrailing 0 wire.2) ≤ 8189 := by
  have haction : "DEPLOY".utf8ByteSize = 6 := by decide
  rw [compiledPushSize_le_iff, deployText, utf8ByteSize_join_cons, haction,
    Tokens.trimTrailing_cons, Tokens.trimTrailing_zero_cons]
  split_ifs with hnone
  · have hcode : base64Length code = 0 := by
      rw [← utf8ByteSize_base64, hnone.2]
      rfl
    rw [hnone.1, hcode]
    simp [segmentBytes, hversion]
  · simp only [segmentBytes, List.map_cons, List.sum_cons, hversion, utf8ByteSize_base64]
    omega

theorem wireOptions_version {M : MathJs} (h : wireOptions M opts = some wire) :
    wire.1.utf8ByteSize = 1 := by
  simp only [wireOptions, Option.bind_eq_bind, Option.bind_eq_some_iff] at h
  obtain ⟨cooldown, -, gas, -, h⟩ := h
  split_ifs at h <;> cases h <;> rfl

/-- A source within its limit is always planned. -/
theorem planDeploy_of_le (H : Host) (hcode : code.utf8ByteSize ≤ MAX_CODE_SIZE) :
    ∃ plan, planDeploy H code opts = .ok plan ∧
      (plan.single = true ↔ fitsSingleDeploy code opts = true) := by
  have hparts : ¬MAX_DEPLOY_CHUNKS < (splitCode code).length := by
    rw [length_splitCode, base64Length, MAX_DEPLOYCHUNK_PART_BYTES, MAX_DEPLOY_CHUNKS]
    rw [MAX_CODE_SIZE] at hcode
    omega
  rw [planDeploy, if_neg (Nat.not_lt.2 hcode)]
  split_ifs with hfits
  · exact ⟨_, rfl, by simp [hfits]⟩
  · exact ⟨_, rfl, by simp [hfits]⟩

end Weight

/-! ### What the spellings shift -/

section Spellings

/-- The parameters are one text with a pipe between them, or the pieces of that text. -/
theorem segmentBytes_join {params : List String} (h : params ≠ []) :
    segmentBytes [Tokens.join '|' params] = segmentBytes params := by
  cases params with
  | nil => exact absurd rfl h
  | cons p params =>
    simp only [segmentBytes, List.map_cons, List.map_nil, List.sum_cons, List.sum_nil,
      utf8ByteSize_join_cons]
    omega

theorem join_eq_empty {params : List String} (h : params ≠ []) (hjoin : Tokens.join '|' params = "") :
    params = [""] := by
  have hbytes := segmentBytes_join h
  rw [hjoin] at hbytes
  rcases params with _ | ⟨p, _ | ⟨q, params⟩⟩
  · exact absurd rfl h
  · rw [← hjoin, Tokens.join_singleton]
  · have hempty : "".utf8ByteSize = 0 := by decide
    simp only [segmentBytes, List.map_cons, List.map_nil, List.sum_cons, List.sum_nil, hempty] at hbytes
    omega

theorem getLast?_cons_ne_empty {gas : String} {params : List String} (hgas : gas ≠ "")
    (h : params.getLast? ≠ some "") : (gas :: params).getLast? ≠ some "" := by
  cases params with
  | nil => simpa using hgas
  | cons p params => simpa using h

/-- Each empty segment at the end is a pipe. -/
theorem segmentBytes_trimTrailing (params : List String) : segmentBytes params =
    segmentBytes (Tokens.trimTrailing 0 params) +
      (params.length - (Tokens.trimTrailing 0 params).length) := by
  obtain ⟨n, hn⟩ := Tokens.exists_trimTrailing 0 params
  have hempty : "".utf8ByteSize = 0 := by decide
  have hlength := congrArg List.length hn
  have hbytes := congrArg segmentBytes hn
  simp only [List.length_append, List.length_replicate] at hlength
  simp only [segmentBytes, List.map_append, List.sum_append, List.map_replicate, List.sum_replicate,
    hempty, smul_eq_mul] at hbytes ⊢
  omega

variable (M : MathJs) (opts : DeployOptions)

/-- A number in the composer's notation. -/
def wireNumber (name : String) (value : Js) : String :=
  valueText ((numberFormat M name value).toOption.getD .undefined)

/-- The gas limit as it is spelled, and `0` for one that is falsy. -/
def spelledGas : String := (opts.gasLimit.or (.num (.fin 0))).toText

/-- No field of stakes is spelled. -/
def Stakeless : Prop := valueText opts.cooldownBlocks = "" ∧ valueText opts.slashDestination = ""

instance : Decidable (Stakeless opts) := inferInstanceAs (Decidable (_ ∧ _))

/-- The empty fields that end a deploy without stakes.  Their pipes are planned and not written; that
of a lone empty parameter is not planned either. -/
def emptyEnds : ℕ :=
  let fields := wireNumber M "GAS_LIMIT" opts.gasLimit :: ctorTexts opts.constructorParams
  let lone := if ctorTexts opts.constructorParams = [""] then 1 else 0
  if Stakeless opts then fields.length - (Tokens.trimTrailing 0 fields).length - lone else 0

/-- Parameters that are `null` are not planned, and written as that text; without stakes their pipe
is not planned either. -/
def nullParams : ℕ :=
  match opts.constructorParams with
  | .null => if Stakeless opts then 5 else 4
  | _ => 0

/-- How many bytes more are planned than written, by what the options spell: a number in another
notation or none, empty fields at the end, and parameters that are `null`. -/
def overcount : ℤ :=
  ((spelledGas opts).utf8ByteSize - (wireNumber M "GAS_LIMIT" opts.gasLimit).utf8ByteSize : ℤ) +
    ((valueText opts.cooldownBlocks).utf8ByteSize -
      (wireNumber M "COOLDOWN_BLOCKS" opts.cooldownBlocks).utf8ByteSize : ℤ) +
    emptyEnds M opts - nullParams opts

variable {M opts} {wire : String × List String}

/-- A number is empty in the composer's notation exactly when it is spelled so. -/
theorem numberFormat_eq_empty {name : String} {value x : Js} (h : numberFormat M name value = .ok x) :
    valueText x = "" ↔ valueText value = "" := by
  rw [numberFormat] at h
  split_ifs at h with hplain
  · cases h
    rfl
  · simp only [Bool.or_eq_true, Bool.not_eq_true', not_or, Bool.not_eq_false] at hplain
    obtain ⟨hpopulated, hnumeric⟩ := hplain
    cases hx : M.bignumber (trim value.toText) with
    | none => simp [hx] at h
    | some n =>
      simp only [hx, Except.ok.injEq] at h
      subst h
      refine iff_of_false ?_ fun hempty => ?_
      · rw [valueText_str]
        exact n.toFixedText_ne_empty
      · -- the empty text is no number
        have hnull : value.isNullish = false := by
          cases value <;> first | rfl | cases hpopulated
        rw [valueText, hnull, if_neg Bool.false_ne_true] at hempty
        cases value with
        | bigint z =>
          have hchars := congrArg String.toList hempty
          simp [Js.toText, intText, Nat.toDigits_ne_nil] at hchars
        | _ =>
          have hnan : parseFloatText "" = .nan := by decide
          simp [isNumeric, hempty, hnan] at hnumeric

theorem ctorString_of_ne_null {params : Js} (h : params ≠ .null) :
    ctorString params = Tokens.join '|' (ctorTexts params) := by
  cases params with
  | null => exact absurd rfl h
  | arr params =>
    have hmap : ctorTexts (.arr params) = params.map toText := List.map_map
    rw [hmap]
    rfl
  | _ => rfl

theorem nullParams_of_null (h : opts.constructorParams = .null) :
    nullParams opts = if Stakeless opts then 5 else 4 := by
  rw [nullParams, h]

theorem nullParams_of_ne (h : opts.constructorParams ≠ .null) : nullParams opts = 0 := by
  rw [nullParams]
  split
  · exact absurd ‹_› h
  · rfl

/-- Parameters that are not `null` weigh in the plan what they weigh one by one, but for a lone empty
one. -/
theorem segmentBytes_ctorString {params : Js} (h : params ≠ .null) :
    segmentBytes (if ctorString params = "" then [] else [ctorString params]) +
      (if ctorTexts params = [""] then 1 else 0) = segmentBytes (ctorTexts params) := by
  have hlone : Tokens.join '|' [""] = "" := Tokens.join_singleton _
  rw [ctorString_of_ne_null h]
  by_cases hnil : ctorTexts params = []
  · rw [hnil]
    rfl
  · by_cases hjoin : Tokens.join '|' (ctorTexts params) = ""
    · rw [if_pos hjoin, join_eq_empty hnil hjoin]
      rfl
    · have hne : ctorTexts params ≠ [""] := fun heq => hjoin (by rw [heq, hlone])
      rw [if_neg hjoin, if_neg hne, segmentBytes_join hnil, add_zero]

/-- The cooldown is empty on the wire exactly when it is spelled so. -/
theorem wireOptions_cooldown (h : wireOptions M opts = some wire) :
    wireNumber M "COOLDOWN_BLOCKS" opts.cooldownBlocks = "" ↔ valueText opts.cooldownBlocks = "" := by
  simp only [wireOptions, Option.bind_eq_bind, Option.bind_eq_some_iff] at h
  obtain ⟨cooldown, hcooldown, -⟩ := h
  rw [wireNumber, hcooldown, Option.getD_some]
  exact numberFormat_eq_empty (Checks.toOption_eq_some.1 hcooldown)

/-- What the wire carries of the options, without the empty fields at its end. -/
theorem trimTrailing_wireOptions (h : wireOptions M opts = some wire) :
    if Stakeless opts then
      Tokens.trimTrailing 0 wire.2 = Tokens.trimTrailing 0
        (wireNumber M "GAS_LIMIT" opts.gasLimit :: ctorTexts opts.constructorParams)
    else (ctorTexts opts.constructorParams).length ≤ 1 ∧
      wire.2 = [wireNumber M "GAS_LIMIT" opts.gasLimit, ",".intercalate (ctorTexts opts.constructorParams),
        wireNumber M "COOLDOWN_BLOCKS" opts.cooldownBlocks, valueText opts.slashDestination] := by
  simp only [wireOptions, Option.bind_eq_bind, Option.bind_eq_some_iff] at h
  obtain ⟨cooldown, hcooldown, gas, hgas, h⟩ := h
  have hgasText : wireNumber M "GAS_LIMIT" opts.gasLimit = valueText gas := by
    rw [wireNumber, hgas, Option.getD_some]
  have hcooldownText : wireNumber M "COOLDOWN_BLOCKS" opts.cooldownBlocks = valueText cooldown := by
    rw [wireNumber, hcooldown, Option.getD_some]
  have hempty := numberFormat_eq_empty (Checks.toOption_eq_some.1 hcooldown)
  rw [hgasText, hcooldownText]
  split_ifs with hstakeless
  · obtain ⟨hnone, hslash⟩ := hstakeless
    split_ifs at h with hstaked hmany
    · -- a field of stakes is populated with the empty text
      cases h
      rcases hparams : ctorTexts opts.constructorParams with _ | ⟨p, _ | ⟨q, params⟩⟩
      · simp [hempty.2 hnone, hslash, Tokens.trimTrailing_zero_cons]
      · simp [hempty.2 hnone, hslash, Tokens.trimTrailing_zero_cons]
      · simp [hparams] at hmany
    · cases h
      rfl
  · have hstaked : isPopulated cooldown = true ∨ isPopulated opts.slashDestination = true := by
      by_contra hnot
      obtain ⟨hcd, hdst⟩ := not_or.1 hnot
      exact hstakeless ⟨hempty.1 (valueText_of_not_populated hcd), valueText_of_not_populated hdst⟩
    rw [if_pos hstaked] at h
    split_ifs at h with hmany
    cases h
    exact ⟨Nat.not_lt.1 hmany, rfl⟩

theorem segmentBytes_cons (t : String) (ts : List String) :
    segmentBytes (t :: ts) = 1 + t.utf8ByteSize + segmentBytes ts := by
  simp [segmentBytes]

theorem overcount_stakeless (h : Stakeless opts)
    (hcooldown : wireNumber M "COOLDOWN_BLOCKS" opts.cooldownBlocks = "") :
    (segmentBytes (plannedSegments opts) : ℤ) = segmentBytes (Tokens.trimTrailing 0
      (wireNumber M "GAS_LIMIT" opts.gasLimit :: ctorTexts opts.constructorParams)) +
        overcount M opts := by
  have hempty : "".utf8ByteSize = 0 := by decide
  have hplanned : plannedSegments opts = spelledGas opts ::
      if ctorString opts.constructorParams = "" then [] else [ctorString opts.constructorParams] :=
    if_pos h
  have hends := segmentBytes_trimTrailing
    (wireNumber M "GAS_LIMIT" opts.gasLimit :: ctorTexts opts.constructorParams)
  have hlone : (if ctorTexts opts.constructorParams = [""] then 1 else 0) ≤
      (wireNumber M "GAS_LIMIT" opts.gasLimit :: ctorTexts opts.constructorParams).length -
        (Tokens.trimTrailing 0
          (wireNumber M "GAS_LIMIT" opts.gasLimit :: ctorTexts opts.constructorParams)).length := by
    split_ifs with heq
    · rw [heq, Tokens.trimTrailing_zero_cons, Tokens.trimTrailing_zero_cons]
      simp only [Tokens.trimTrailing_nil, and_self, if_true, true_and]
      split_ifs <;> simp
    · exact Nat.zero_le _
  rw [hplanned, overcount, emptyEnds, if_pos h, hcooldown, h.1, hempty, segmentBytes_cons]
  rw [segmentBytes_cons] at hends
  by_cases hnull : opts.constructorParams = .null
  · have htexts : ctorTexts opts.constructorParams = ["null"] := by
      rw [hnull]
      rfl
    have hctor : ctorString opts.constructorParams = "" := by
      rw [hnull]
      rfl
    have hbytes : segmentBytes ["null"] = 5 := by decide
    rw [nullParams_of_null hnull, if_pos h, if_pos hctor]
    have hlast : [wireNumber M "GAS_LIMIT" opts.gasLimit, "null"].getLast? ≠ some "" := by simp
    have hnil : segmentBytes [] = 0 := rfl
    have hne : ["null"] ≠ [""] := by decide
    rw [htexts, Tokens.trimTrailing_of_getLast? hlast, segmentBytes_cons, if_neg hne, hbytes, hnil]
    omega
  · have hctor := segmentBytes_ctorString hnull
    rw [nullParams_of_ne hnull]
    omega

theorem overcount_staked (h : ¬Stakeless opts) (hone : (ctorTexts opts.constructorParams).length ≤ 1)
    (hcooldown : wireNumber M "COOLDOWN_BLOCKS" opts.cooldownBlocks = "" ↔
      valueText opts.cooldownBlocks = "") :
    (segmentBytes (plannedSegments opts) : ℤ) = segmentBytes (Tokens.trimTrailing 0
      [wireNumber M "GAS_LIMIT" opts.gasLimit, ",".intercalate (ctorTexts opts.constructorParams),
        wireNumber M "COOLDOWN_BLOCKS" opts.cooldownBlocks, valueText opts.slashDestination]) +
        overcount M opts := by
  have hplanned : plannedSegments opts = [spelledGas opts, ctorString opts.constructorParams,
      valueText opts.cooldownBlocks] ++
        if valueText opts.slashDestination = "" then [] else [valueText opts.slashDestination] :=
    if_neg h
  have hctor : ((ctorString opts.constructorParams).utf8ByteSize : ℤ) =
      (",".intercalate (ctorTexts opts.constructorParams)).utf8ByteSize - nullParams opts := by
    by_cases hnull : opts.constructorParams = .null
    · rw [nullParams_of_null hnull, if_neg h, hnull]
      decide
    · have hjoin : Tokens.join '|' (ctorTexts opts.constructorParams) =
          ",".intercalate (ctorTexts opts.constructorParams) := by
        rcases hparams : ctorTexts opts.constructorParams with _ | ⟨p, _ | ⟨q, params⟩⟩
        · rfl
        · simp
        · simp [hparams] at hone
      rw [nullParams_of_ne hnull, ctorString_of_ne_null hnull, hjoin]
      omega
  rw [hplanned, overcount, emptyEnds, if_neg h]
  by_cases hslash : valueText opts.slashDestination = ""
  · have hcd : wireNumber M "COOLDOWN_BLOCKS" opts.cooldownBlocks ≠ "" := fun hcd =>
      h ⟨hcooldown.1 hcd, hslash⟩
    simp only [hslash, if_true, List.append_nil, Tokens.trimTrailing_zero_cons, Tokens.trimTrailing_nil,
      and_self, hcd, and_false, if_false, List.cons_ne_nil, false_and, segmentBytes_cons]
    push_cast
    omega
  · rw [if_neg hslash, Tokens.trimTrailing_of_getLast? (by simpa using hslash)]
    simp only [List.cons_append, List.nil_append, segmentBytes_cons]
    push_cast
    omega

/-- **The plan counts the bytes of the wire and those that the spellings shift.** -/
theorem segmentBytes_plannedSegments (h : wireOptions M opts = some wire) :
    (segmentBytes (plannedSegments opts) : ℤ) =
      segmentBytes (Tokens.trimTrailing 0 wire.2) + overcount M opts := by
  have hwire := trimTrailing_wireOptions h
  have hcooldown := wireOptions_cooldown h
  split_ifs at hwire with hstakeless
  · rw [hwire]
    exact overcount_stakeless hstakeless (hcooldown.2 hstakeless.1)
  · rw [hwire.2]
    exact overcount_staked hstakeless hwire.1 hcooldown

end Spellings

/-! ### The plan and the string -/

section Plan

variable (M : MathJs) (H : Host) (code : String) (opts : DeployOptions)

/-- A single transaction is planned exactly when the string that the composer writes fits one. -/
def PlansExactly : Prop :=
  ∀ plan text, planDeploy H code opts = .ok plan → composeDeploy M code opts = .ok text →
    (plan.single = true ↔ compiledPushSize text.utf8ByteSize ≤ MAX_ACTION_DATA_LENGTH)

/-- The slices are the source, each fits its carrier, and the plan is the string's. -/
structure DeploysInChunks : Prop where
  join : ((splitCode code).map String.toList).flatten = (base64 code).toList
  fits : ∀ index part, (splitCode code)[index]? = some part → ∃ text,
    chunkAction (codeHashOf H code) index (splitCode code).length part = .ok text ∧
      compiledPushSize text.utf8ByteSize ≤ MAX_ACTION_DATA_LENGTH
  plans : PlansExactly M H code opts

/-- A source within its limit whose string is on one side of the carrier's limit, and on the other
side with the bytes that the spellings of the options shift. -/
def Straddles : Prop :=
  code.utf8ByteSize ≤ MAX_CODE_SIZE ∧ ∃ wire, wireOptions M opts = some wire ∧
    ¬((9 + base64Length code + segmentBytes (Tokens.trimTrailing 0 wire.2) : ℤ) ≤ 8189 ↔
      (9 + base64Length code + segmentBytes (Tokens.trimTrailing 0 wire.2) : ℤ) + overcount M opts ≤
        8189)

/-- Options that the wire spells as they are given: the gas limit and the cooldown are in the
composer's notation, the parameters are not `null`, and no empty one ends a deploy without stakes. -/
structure SpelledAsWritten : Prop where
  gas : wireNumber M "GAS_LIMIT" opts.gasLimit = spelledGas opts
  gas_ne : spelledGas opts ≠ ""
  cooldown : wireNumber M "COOLDOWN_BLOCKS" opts.cooldownBlocks = valueText opts.cooldownBlocks
  params : opts.constructorParams ≠ .null
  last : Stakeless opts → ctorTexts opts.constructorParams = [""] ∨
    (ctorTexts opts.constructorParams).getLast? ≠ some ""

variable {M H code opts}

theorem plansExactly_iff : PlansExactly M H code opts ↔ ¬Straddles M code opts := by
  by_cases hcode : code.utf8ByteSize ≤ MAX_CODE_SIZE
  · obtain ⟨plan, hplan, hsingle⟩ := @planDeploy_of_le code opts H hcode
    have hcompose := composeDeploy_toOption M code opts
    rw [Straddles, not_and]
    constructor
    · rintro h - ⟨wire, hwire, hnot⟩
      rw [hwire, Option.map_some, Checks.toOption_eq_some] at hcompose
      have hiff := h plan _ hplan hcompose
      rw [hsingle, fitsSingleDeploy_iff, deployText_fits_iff (wireOptions_version hwire)] at hiff
      have hplanned := segmentBytes_plannedSegments hwire
      omega
    · intro h plan' text hplan' htext
      cases hplan.symm.trans hplan'
      rw [htext] at hcompose
      obtain ⟨wire, hwire, rfl⟩ := Option.map_eq_some_iff.1 hcompose.symm
      have hplanned := segmentBytes_plannedSegments hwire
      rw [hsingle, fitsSingleDeploy_iff, deployText_fits_iff (wireOptions_version hwire)]
      by_contra hne
      refine h hcode ⟨wire, hwire, ?_⟩
      omega
  · refine ⟨fun _ h => hcode h.1, fun _ plan text hplan => ?_⟩
    rw [planDeploy, if_pos (Nat.not_le.1 hcode)] at hplan
    cases hplan

theorem utf8ByteSize_codeHashOf (H : Host) (code : String) :
    (codeHashOf H code).utf8ByteSize = 64 := by
  have hdigit : ∀ n < 16, (hexDigit n).utf8Size = 1 := by decide
  have hbytes : ∀ bs : Bytes, (bs.flatMap hexByte).length = 2 * bs.length ∧
      ∀ c ∈ bs.flatMap hexByte, c.utf8Size = 1 := by
    intro bs
    refine ⟨by simp [List.length_flatMap, hexByte, Nat.mul_comm], fun c hc => ?_⟩
    obtain ⟨b, -, hb⟩ := List.mem_flatMap.1 hc
    have hlt : b.toNat < 256 := b.toNat_lt
    simp only [hexByte, List.mem_cons, List.not_mem_nil, or_false] at hb
    rcases hb with rfl | rfl
    · exact hdigit _ (by omega)
    · exact hdigit _ (by omega)
  rw [codeHashOf, toHex, utf8ByteSize_ofList (hbytes _).2, (hbytes _).1, Digest.length_bytes]

/-- Such options shift nothing. -/
theorem SpelledAsWritten.overcount_eq (h : SpelledAsWritten M opts) : overcount M opts = 0 := by
  have hnull : nullParams opts = 0 := by
    rw [nullParams]
    split
    · exact absurd ‹_› h.params
    · rfl
  have hends : emptyEnds M opts = 0 := by
    simp only [emptyEnds, h.gas]
    split_ifs with hstakeless hlone
    · simp [hlone, h.gas_ne, Tokens.trimTrailing_zero_cons]
    · have hlast := (h.last hstakeless).resolve_left hlone
      rw [Tokens.trimTrailing_of_getLast? (getLast?_cons_ne_empty h.gas_ne hlast)]
      omega
    · rfl
  rw [overcount, hnull, hends, h.gas, h.cooldown]
  omega

theorem SpelledAsWritten.not_straddles (h : SpelledAsWritten M opts) : ¬Straddles M code opts := by
  rintro ⟨-, wire, -, hnot⟩
  rw [h.overcount_eq] at hnot
  exact hnot (by rw [add_zero])

/-- **The slices of every source are the source and fit their carriers, and the plan is that of the
string which is written, exactly when the bytes that the spellings of the options shift do not carry
that string over the limit of its carrier or back**; they never do for options that the wire spells as
they are given. -/
theorem deploysInChunks_iff (hcode : code.utf8ByteSize < 2 ^ 55) :
    (DeploysInChunks M H code opts ↔ ¬Straddles M code opts) ∧
      (SpelledAsWritten M opts → ¬Straddles M code opts) := by
  refine ⟨⟨fun h => plansExactly_iff.1 h.plans, fun h => ⟨splitCode_join code, ?_, ?_⟩⟩,
    SpelledAsWritten.not_straddles⟩
  · intro index part hpart
    exact chunkAction_fits hcode (utf8ByteSize_codeHashOf H code) hpart
  · exact plansExactly_iff.2 h

end Plan

/-- A stakeable deploy of a short source. -/
def stakeableOptions : DeployOptions where
  gasLimit := .num (.fin 100000)
  constructorParams := .arr [.str "alice"]
  cooldownBlocks := .num (.fin 144)
  slashDestination := .str "bcrt1qw508d6qejxtdg4y5r3zarvary0c5xw7kygt080"

theorem deploysInChunks_stakeable :
    DeploysInChunks plainMath plainHost "module.exports={};" stakeableOptions :=
  have h := @deploysInChunks_iff plainMath plainHost "module.exports={};" stakeableOptions (by decide)
  h.1.2 (h.2 {
    gas := by decide +kernel
    gas_ne := by decide +kernel
    cooldown := by decide +kernel
    params := fun hnull => by cases hnull
    last := fun _ => .inr (by decide) })

/-- Options whose last parameter is empty: the plan counts its pipe and the wire drops it. -/
def trailingParameter : DeployOptions where
  gasLimit := .num (.fin 1000000)
  constructorParams := .arr [.str "abc", .str ""]

theorem deploysInChunks_trailingParameter :
    ¬DeploysInChunks plainMath plainHost (String.ofList (List.replicate 6126 'x')) trailingParameter := by
  intro h
  have hsize : (String.ofList (List.replicate 6126 'x')).utf8ByteSize = 6126 := by
    rw [utf8ByteSize_ofList, List.length_replicate]
    intro c hc
    rw [List.eq_of_mem_replicate hc]
    decide
  have hshift : overcount plainMath trailingParameter = 1 := by decide +kernel
  refine plansExactly_iff.1 h.plans ⟨?_, ("0", ["1000000", "abc", ""]), by decide +kernel, ?_⟩
  · rw [hsize]
    decide
  · rw [base64Length, hsize, hshift]
    decide

end XChainSdk
