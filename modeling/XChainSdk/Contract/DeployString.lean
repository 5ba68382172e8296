import XChainSdk.Contract.ChunkCarriers

/-!
# The string of a deploy

What the composer writes of a source and its options.

* `select_plain`, `select_staked` : the format, by whether a field of stakes is populated.
* `composeDeploy_toOption` : **the string, segment by segment**.
-/

namespace XChainSdk

open Js Hash

/-! ### What the composer writes -/

/-- The texts of the parameters of the constructor. -/
def ctorTexts (constructorParams : Js) : List String := (ctorField constructorParams).elems.map toText

theorem ctorField_eq (x : Js) :
    (ctorField x = .undefined ∧ ctorTexts x = []) ∨ ctorField x = .arr ((ctorTexts x).map .str) := by
  have harr : ∀ xs : List Js, (xs.map fun p => Js.str p.toText) =
      ((xs.map fun p => Js.str p.toText).map toText).map .str := by
    intro xs
    simp
  cases x with
  | undefined => exact .inl ⟨rfl, rfl⟩
  | _ => exact .inr (congrArg Js.arr (harr _))

theorem joinTexts_str (texts : List String) : joinTexts (texts.map .str) = texts := by
  induction texts with
  | nil => rfl
  | cons t texts ih => simp [joinTexts, isNullish, ih]

/-- One value for all parameters, as a field that is no variadic tail takes it. -/
theorem valueText_ctorField (x : Js) : valueText (ctorField x) = ",".intercalate (ctorTexts x) := by
  rcases ctorField_eq x with ⟨h, h'⟩ | h
  · rw [h, h']
    rfl
  · rw [h, valueText, toText, joinTexts_str]
    rfl

theorem map_valueText_elems (x : Js) : (ctorField x).elems.map valueText = ctorTexts x := by
  rcases ctorField_eq x with ⟨h, h'⟩ | h
  · rw [h, h']
    rfl
  · have hid : valueText ∘ Js.str = id := funext valueText_str
    conv_lhs => rw [h]
    simp [elems, hid]

section Compose

variable {code : String} {opts : DeployOptions} {gas cooldown : Js}

/-- The fields of a deploy whose numbers are in their format. -/
def deployRecord (code : String) (opts : DeployOptions) (gas cooldown : Js) : Fields :=
  [("GAS_LIMIT", gas), ("CONSTRUCTOR_PARAMS", ctorField opts.constructorParams),
    ("COOLDOWN_BLOCKS", cooldown), ("SLASH_DESTINATION", opts.slashDestination),
    ("CODE_ENCODING", .str (base64 code))]

/-- The slots of an inline deploy, and those of one that names a hash. -/
def plainSlots (source : String) : List Slot := variadic [source, "GAS_LIMIT"] "CONSTRUCTOR_PARAMS"

def stakedSlots (source : String) : List Slot :=
  fixed [source, "GAS_LIMIT", "CONSTRUCTOR_PARAMS", "COOLDOWN_BLOCKS", "SLASH_DESTINATION"]

def chunkSlots : List Slot := fixed ["CODE_HASH", "CHUNK_INDEX", "TOTAL_CHUNKS", "CODE_PART"]

/-- The formats of a deploy. -/
def deployVersions : List (ℕ × List Slot) :=
  [(0, plainSlots "CODE_ENCODING"), (1, stakedSlots "CODE_ENCODING"), (2, plainSlots "CODE_HASH"),
    (3, stakedSlots "CODE_HASH"), (4, chunkSlots)]

theorem lookup_deploy : formats.lookup "DEPLOY" = some deployVersions := rfl

theorem plainLength (version : ℕ) (source : String) (fields : Fields) :
    flatLength "DEPLOY" version (plainSlots source) fields =
      9 + utf16Length (natText version) + utf16Length (valueText (member fields source)) +
        utf16Length (valueText (member fields "GAS_LIMIT")) + 1 +
        (((member fields "CONSTRUCTOR_PARAMS").elems.map fun item => utf16Length item.toText).sum +
          ((member fields "CONSTRUCTOR_PARAMS").elems.length - 1)) := by
  have haction : utf16Length "DEPLOY" = 6 := by decide
  simp [flatLength, plainSlots, variadic, fixed, slotLength, slotParts, haction]
  omega

theorem stakedLength (version : ℕ) (source : String) (fields : Fields) :
    flatLength "DEPLOY" version (stakedSlots source) fields =
      9 + utf16Length (natText version) + utf16Length (valueText (member fields source)) +
        utf16Length (valueText (member fields "GAS_LIMIT")) + 1 +
        utf16Length (valueText (member fields "CONSTRUCTOR_PARAMS")) + 1 +
        utf16Length (valueText (member fields "COOLDOWN_BLOCKS")) + 1 +
        utf16Length (valueText (member fields "SLASH_DESTINATION")) := by
  have haction : utf16Length "DEPLOY" = 6 := by decide
  simp [flatLength, stakedSlots, fixed, slotLength, slotParts, haction]
  omega

/-- The populated fields of a deploy stand among the slots of a format. -/
def SlotsHold (formatFields : List Slot) (fields : Fields) : Prop :=
  ∀ field ∈ (getPopulatedFields fields).filter (· != LEGS_FIELD), field ∈ userSlots formatFields

instance (formatFields : List Slot) (fields : Fields) : Decidable (SlotsHold formatFields fields) :=
  inferInstanceAs (Decidable (∀ field ∈ _, _))

theorem slotsHold_deploy (formatFields : List Slot) :
    SlotsHold formatFields (deployRecord code opts gas cooldown) ↔
      (isPopulated gas = true → "GAS_LIMIT" ∈ userSlots formatFields) ∧
      (isPopulated (ctorField opts.constructorParams) = true →
        "CONSTRUCTOR_PARAMS" ∈ userSlots formatFields) ∧
      (isPopulated cooldown = true → "COOLDOWN_BLOCKS" ∈ userSlots formatFields) ∧
      (isPopulated opts.slashDestination = true → "SLASH_DESTINATION" ∈ userSlots formatFields) ∧
      (base64 code ≠ "" → "CODE_ENCODING" ∈ userSlots formatFields) := by
  simp only [SlotsHold, mem_populatedFields, deployRecord, List.map_cons, List.map_nil,
    List.mem_cons, List.not_mem_nil, or_false]
  constructor
  · intro h
    refine ⟨fun hp => h _ ⟨by simp, hp, by decide⟩, fun hp => h _ ⟨by simp, hp, by decide⟩,
      fun hp => h _ ⟨by simp, hp, by decide⟩, fun hp => h _ ⟨by simp, hp, by decide⟩,
      fun hp => h _ ⟨by simp, ?_, by decide⟩⟩
    exact (bne_iff_ne).2 hp
  · rintro ⟨hgas, hctor, hcooldown, hslash, hcode⟩ field ⟨rfl | rfl | rfl | rfl | rfl, hp, -⟩
    · exact hgas hp
    · exact hctor hp
    · exact hcooldown hp
    · exact hslash hp
    · exact hcode (bne_iff_ne.1 hp)

theorem versionCandidate_deploy {version : ℕ} {formatFields : List Slot} {fields : Fields}
    (hformat : formatOf "DEPLOY" version = .ok (formatFields, none)) (hlegs : getLegs fields = .ok none) :
    versionCandidate "DEPLOY" version fields
      ((getPopulatedFields fields).filter (· != LEGS_FIELD)) none =
      .ok (if SlotsHold formatFields fields then
        some ⟨version, formatFields, flatLength "DEPLOY" version formatFields fields⟩ else none) := by
  have hhold : (((getPopulatedFields fields).filter (· != LEGS_FIELD)).all
      ((userSlots formatFields).contains ·) = true) = SlotsHold formatFields fields := by
    simp only [SlotsHold, List.all_eq_true, List.contains_iff_mem]
  rw [versionCandidate_flat _ rfl hformat hlegs]
  simp only [hhold]

/-- One version of a deploy as a candidate. -/
def deployCandidate (fields : Fields) (entry : ℕ × List Slot) : Option Selected :=
  if SlotsHold entry.2 fields then
    some ⟨entry.1, entry.2, flatLength "DEPLOY" entry.1 entry.2 fields⟩ else none

theorem valueText_of_not_populated {x : Js} (h : ¬isPopulated x = true) : valueText x = "" := by
  cases x with
  | undefined => rfl
  | null => rfl
  | str s => simpa [isPopulated] using h
  | _ => exact absurd rfl h

theorem plainLength_deploy (version : ℕ) (source : String) :
    flatLength "DEPLOY" version (plainSlots source) (deployRecord code opts gas cooldown) =
      9 + utf16Length (natText version) +
        utf16Length (valueText (member (deployRecord code opts gas cooldown) source)) +
        utf16Length (valueText gas) + 1 +
        utf16Length (",".intercalate (ctorTexts opts.constructorParams)) := by
  have htexts : (ctorField opts.constructorParams).elems.map (fun item => utf16Length item.toText) =
      (ctorTexts opts.constructorParams).map utf16Length := by
    rw [ctorTexts, List.map_map]
    rfl
  have hlength : (ctorField opts.constructorParams).elems.length =
      (ctorTexts opts.constructorParams).length := by
    rw [ctorTexts, List.length_map]
  have hctor : member (deployRecord code opts gas cooldown) "CONSTRUCTOR_PARAMS" =
      ctorField opts.constructorParams := rfl
  rw [plainLength, hctor, htexts, hlength, utf16Length_intercalate]
  rfl

theorem stakedLength_deploy (version : ℕ) (source : String) :
    flatLength "DEPLOY" version (stakedSlots source) (deployRecord code opts gas cooldown) =
      9 + utf16Length (natText version) +
        utf16Length (valueText (member (deployRecord code opts gas cooldown) source)) +
        utf16Length (valueText gas) + 1 +
        utf16Length (",".intercalate (ctorTexts opts.constructorParams)) + 1 +
        utf16Length (valueText cooldown) + 1 + utf16Length (valueText opts.slashDestination) := by
  rw [stakedLength, ← valueText_ctorField]
  rfl

/-- A version whose string is shorter than that of every other candidate is selected. -/
theorem select_deploy_of {entry : ℕ × List Slot} (hentry : entry ∈ deployVersions)
    (hhold : SlotsHold entry.2 (deployRecord code opts gas cooldown))
    (hleast : ∀ other ∈ deployVersions, SlotsHold other.2 (deployRecord code opts gas cooldown) →
      other = entry ∨
        flatLength "DEPLOY" entry.1 entry.2 (deployRecord code opts gas cooldown) <
          flatLength "DEPLOY" other.1 other.2 (deployRecord code opts gas cooldown) ∨
        flatLength "DEPLOY" entry.1 entry.2 (deployRecord code opts gas cooldown) =
          flatLength "DEPLOY" other.1 other.2 (deployRecord code opts gas cooldown) ∧
          entry.1 < other.1) :
    ∃ length, select "DEPLOY" (deployRecord code opts gas cooldown) .undefined =
      .ok ⟨entry.1, entry.2, length⟩ := by
  have hlegs : getLegs (deployRecord code opts gas cooldown) = .ok none := rfl
  have hcandidates := Checks.mapM_of_forall (l := deployVersions)
    (f := fun entry => versionCandidate "DEPLOY" entry.1 (deployRecord code opts gas cooldown)
      ((getPopulatedFields (deployRecord code opts gas cooldown)).filter (· != LEGS_FIELD)) none)
    (g := deployCandidate (deployRecord code opts gas cooldown)) (by
      simp only [deployVersions, List.forall_mem_cons]
      exact ⟨versionCandidate_deploy rfl hlegs, versionCandidate_deploy rfl hlegs,
        versionCandidate_deploy rfl hlegs, versionCandidate_deploy rfl hlegs,
        versionCandidate_deploy rfl hlegs, fun _ h => absurd h List.not_mem_nil⟩)
  refine ⟨_, select_of_least lookup_deploy hlegs hcandidates
    (List.mem_map.2 ⟨entry, hentry, if_pos hhold⟩) ?_⟩
  intro b hb hshort
  obtain ⟨other, hother, hb⟩ := List.mem_map.1 hb
  rw [deployCandidate, Option.ite_none_right_eq_some] at hb
  obtain ⟨hheld, hb⟩ := hb
  cases hb
  simp only [shorterFirst] at hshort
  rcases hleast other hother hheld with rfl | hlt | ⟨heq, hlt⟩
  · rfl
  · rw [if_pos (Nat.ne_of_gt hlt), decide_eq_true_eq] at hshort
    omega
  · rw [if_neg (not_not.2 heq.symm), decide_eq_true_eq] at hshort
    omega

/-- A format that names a hash is a candidate of an empty source only. -/
theorem base64_eq_empty_of_slotsHold {formatFields : List Slot}
    (h : SlotsHold formatFields (deployRecord code opts gas cooldown))
    (hnot : "CODE_ENCODING" ∉ userSlots formatFields) : base64 code = "" :=
  not_not.1 fun hne => hnot (((slotsHold_deploy _).1 h).2.2.2.2 hne)

/-- A field of stakes selects version 1. -/
theorem select_staked (hstaked : isPopulated cooldown = true ∨ isPopulated opts.slashDestination = true) :
    ∃ length, select "DEPLOY" (deployRecord code opts gas cooldown) .undefined =
      .ok ⟨1, stakedSlots "CODE_ENCODING", length⟩ := by
  have hslots : ∀ {slots}, SlotsHold slots (deployRecord code opts gas cooldown) →
      "COOLDOWN_BLOCKS" ∈ userSlots slots ∨ "SLASH_DESTINATION" ∈ userSlots slots := by
    intro slots h
    obtain ⟨-, -, hcooldown, hslash, -⟩ := (slotsHold_deploy _).1 h
    exact hstaked.imp hcooldown hslash
  refine @select_deploy_of code opts gas cooldown (1, stakedSlots "CODE_ENCODING")
    (by simp [deployVersions]) ((slotsHold_deploy _).2 ⟨fun _ => by decide, fun _ => by decide,
      fun _ => by decide, fun _ => by decide, fun _ => by decide⟩) ?_
  intro other hother h
  simp only [deployVersions, List.mem_cons, List.not_mem_nil, or_false] at hother
  rcases hother with rfl | rfl | rfl | rfl | rfl
  · exact absurd (hslots h) (by decide)
  · exact .inl rfl
  · exact absurd (hslots h) (by decide)
  · refine .inr (.inr ⟨?_, by decide⟩)
    rw [stakedLength_deploy, stakedLength_deploy]
    have hsource : member (deployRecord code opts gas cooldown) "CODE_ENCODING" =
        .str (base64 code) := rfl
    rw [hsource, base64_eq_empty_of_slotsHold h (by decide)]
    rfl
  · exact absurd (hslots h) (by decide)

/-- Without one, version 0 is selected. -/
theorem select_plain (hcooldown : ¬isPopulated cooldown = true)
    (hslash : ¬isPopulated opts.slashDestination = true) :
    ∃ length, select "DEPLOY" (deployRecord code opts gas cooldown) .undefined =
      .ok ⟨0, plainSlots "CODE_ENCODING", length⟩ := by
  have hsource : member (deployRecord code opts gas cooldown) "CODE_ENCODING" =
      .str (base64 code) := rfl
  have hhash : member (deployRecord code opts gas cooldown) "CODE_HASH" = .undefined := rfl
  have hdigit : utf16Length (natText 0) = 1 ∧ utf16Length (natText 1) = 1 ∧
      utf16Length (natText 2) = 1 ∧ utf16Length (natText 3) = 1 := by decide
  have hnone : utf16Length (valueText .undefined) = 0 := rfl
  have hempty : utf16Length "" = 0 := rfl
  refine @select_deploy_of code opts gas cooldown (0, plainSlots "CODE_ENCODING")
    (by simp [deployVersions]) ((slotsHold_deploy _).2 ⟨fun _ => by decide, fun _ => by decide,
      fun h => absurd h hcooldown, fun h => absurd h hslash, fun _ => by decide⟩) ?_
  intro other hother h
  simp only [deployVersions, List.mem_cons, List.not_mem_nil, or_false] at hother
  rcases hother with rfl | rfl | rfl | rfl | rfl
  · exact .inl rfl
  · refine .inr (.inl ?_)
    rw [plainLength_deploy, stakedLength_deploy, hdigit.1, hdigit.2.1]
    omega
  · refine .inr (.inr ⟨?_, by decide⟩)
    rw [plainLength_deploy, plainLength_deploy, hdigit.1, hdigit.2.2.1, hsource, hhash,
      base64_eq_empty_of_slotsHold h (by decide)]
    rfl
  · refine .inr (.inl ?_)
    rw [plainLength_deploy, stakedLength_deploy, hdigit.1, hdigit.2.2.2, hsource, hhash,
      base64_eq_empty_of_slotsHold h (by decide), valueText_str, hnone, hempty]
    omega
  · refine .inr (.inl ?_)
    obtain ⟨hgas, hctor, -⟩ := (slotsHold_deploy _).1 h
    have hctor' : ctorTexts opts.constructorParams = [] := by
      rcases ctorField_eq opts.constructorParams with ⟨-, hnil⟩ | harr
      · exact hnil
      · exact absurd (hctor (by rw [harr]; rfl)) (by decide)
    have hgas' := valueText_of_not_populated fun hp => absurd (hgas hp) (by decide)
    have hchunk : flatLength "DEPLOY" 4 chunkSlots (deployRecord code opts gas cooldown) = 12 := rfl
    rw [plainLength_deploy, hdigit.1, hsource, base64_eq_empty_of_slotsHold h (by decide), hgas',
      hctor', hchunk]
    decide

/-- The version and the segments of the options on the wire; `none` where the composer refuses. -/
def wireOptions (M : MathJs) (opts : DeployOptions) : Option (String × List String) := do
  let cooldown ← (numberFormat M "COOLDOWN_BLOCKS" opts.cooldownBlocks).toOption
  let gas ← (numberFormat M "GAS_LIMIT" opts.gasLimit).toOption
  let params := ctorTexts opts.constructorParams
  if isPopulated cooldown ∨ isPopulated opts.slashDestination then
    if 1 < params.length then none
    else some ("1", [valueText gas, ",".intercalate params, valueText cooldown,
      valueText opts.slashDestination])
  else some ("0", valueText gas :: params)

/-- The string of a deploy. -/
def deployText (code : String) (wire : String × List String) : String :=
  Tokens.join '|' ("DEPLOY" :: Tokens.trimTrailing 1 (wire.1 :: base64 code :: wire.2))

theorem serialize_staked : serialize "DEPLOY" 1 (deployRecord code opts gas cooldown) =
    .ok (deployText code ("1", [valueText gas, ",".intercalate (ctorTexts opts.constructorParams),
      valueText cooldown, valueText opts.slashDestination])) := by
  rw [@serialize_flat "DEPLOY" 1 (stakedSlots "CODE_ENCODING") _ rfl rfl, ← valueText_ctorField]
  have hcode : base64 code = valueText (.str (base64 code)) := (valueText_str _).symm
  conv_rhs => rw [deployText, hcode]
  rfl

theorem serialize_plain : serialize "DEPLOY" 0 (deployRecord code opts gas cooldown) =
    .ok (deployText code ("0", valueText gas :: ctorTexts opts.constructorParams)) := by
  rw [@serialize_flat "DEPLOY" 0 (plainSlots "CODE_ENCODING") _ rfl rfl, ← map_valueText_elems,
    ← List.append_nil (List.map valueText _)]
  have hcode : base64 code = valueText (.str (base64 code)) := (valueText_str _).symm
  conv_rhs => rw [deployText, hcode]
  rfl

/-- What the composer makes of a deploy. -/
theorem composeDeploy_toOption (M : MathJs) (code : String) (opts : DeployOptions) :
    (composeDeploy M code opts).toOption = (wireOptions M opts).map (deployText code) := by
  rw [composeDeploy, deployFields, wireOptions]
  cases numberFormat M "COOLDOWN_BLOCKS" opts.cooldownBlocks with
  | error e => rfl
  | ok cooldown =>
    cases numberFormat M "GAS_LIMIT" opts.gasLimit with
    | error e => rfl
    | ok gas =>
      have hcount : (member (deployRecord code opts gas cooldown) "CONSTRUCTOR_PARAMS").elems.length =
          (ctorTexts opts.constructorParams).length := (List.length_map _).symm
      by_cases hstaked : isPopulated cooldown = true ∨ isPopulated opts.slashDestination = true
      · obtain ⟨length, hselect⟩ := @select_staked code opts gas cooldown hstaked
        have hslots : (stakedSlots "CODE_ENCODING").contains (.field "CONSTRUCTOR_PARAMS") = true :=
          rfl
        simp only [deployRecord] at hselect hcount
        simp only [bind, Except.bind, pure, Except.pure, Except.toOption, Option.bind, hselect,
          Except.mapError, hcount, hslots, and_true, if_pos hstaked]
        by_cases hmany : 1 < (ctorTexts opts.constructorParams).length
        · rw [if_pos hmany, if_pos hmany]
          rfl
        · rw [if_neg hmany, if_neg hmany]
          have hser := @serialize_staked code opts gas cooldown
          simp only [deployRecord] at hser
          simp only [hser]
          rfl
      · obtain ⟨hcooldown, hslash⟩ := not_or.1 hstaked
        obtain ⟨length, hselect⟩ := @select_plain code opts gas cooldown hcooldown hslash
        have hslots : (plainSlots "CODE_ENCODING").contains (.field "CONSTRUCTOR_PARAMS") = false :=
          rfl
        have hser := @serialize_plain code opts gas cooldown
        simp only [deployRecord] at hselect hser
        simp only [bind, Except.bind, pure, Except.pure, Except.toOption, Option.bind, hselect,
          Except.mapError, hslots, Bool.false_eq_true, and_false, if_false, if_neg hstaked, hser]
        rfl

end Compose

end XChainSdk
