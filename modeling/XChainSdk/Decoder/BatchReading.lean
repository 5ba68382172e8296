import XChainSdk.Decoder.Reading
import XChainSdk.Protocol.BatchLimits

/-!
# The limit scan and the decoder

The limits of a batch are counted over the raw text of its commands, by readers of their own.

* `airdropLegs_charged` : an airdrop is charged for the legs that the decoder reads; **for one fewer
  when the last leg of a format 3 has only its tick**.
* `batchWeight_wellFounded` : **no command weighs less than one**, and what airdrops are charged.
* `classification_reads` : **a command is classified by the action and the tick that the decoder
  reads**.
-/

namespace XChainSdk

/-- The value of a parameter, or that of its first leg. -/
def Param.first : Param → String
  | one value => value
  | many values => values.headD ""

/-- The legs that the decoder reads. -/
def ParsedCommand.legCount (c : ParsedCommand) : ℕ := (c.legs.map List.length).getD 1

def DecodedAction.action : DecodedAction → String
  | command c => c.action
  | batch .. => "BATCH"

/-! ### The legs of an airdrop -/

section Legs

variable {text : String} {w : WireHead} {s : Shape}

/-- The sizes of the group and of the slots around it. -/
def legWidths (fields : List Slot) : Option (Option (ℕ × ℕ)) :=
  (getRepeatedGroup fields).map (Option.map fun g =>
    (g.groupSlots.length, g.prefixSlots.length + g.suffixSlots.length))

theorem airdrop_legWidths {version : ℕ} {fields : List Slot}
    (h : getFormatFields "AIRDROP" version = some fields) :
    (version = 0 ∧ legWidths fields = some none) ∨
      (version = 1 ∧ legWidths fields = some (some (2, 3))) ∨
      (version = 2 ∧ legWidths fields = some (some (3, 2))) ∨
      (version = 3 ∧ legWidths fields = some (some (4, 1))) := by
  obtain ⟨versions, hversions, hfields⟩ := Option.bind_eq_some_iff.1 h
  have hall : ∀ entry ∈ formats, entry.1 = "AIRDROP" → ∀ format ∈ entry.2,
      (format.1 = 0 ∧ legWidths format.2 = some none) ∨
        (format.1 = 1 ∧ legWidths format.2 = some (some (2, 3))) ∨
        (format.1 = 2 ∧ legWidths format.2 = some (some (3, 2))) ∨
        (format.1 = 3 ∧ legWidths format.2 = some (some (4, 1))) := by decide
  exact hall _ (Loop.mem_of_lookup hversions) rfl _ (Loop.mem_of_lookup hfields)

theorem legCount_commandOf (hgroup : getRepeatedGroup w.fieldNames = some s.group?) :
    (commandOf w s).legCount = match legWidths w.fieldNames with
      | some (some (per, base)) => legCountOf per base w.valueSegs.length
      | _ => 1 := by
  rw [legWidths, hgroup]
  cases s with
  | flat names => rfl
  | rested names tail => rfl
  | legged lead group trail =>
    simp [ParsedCommand.legCount, commandOf, Shape.mapped, mapRepeatedFields, Shape.group?]

/-- The limit scan reads the version that the decoder reads, but for blank text. -/
theorem formatVersion_reads (hreads : HeadReads text w)
    (haction : w.action ∉ legacyFormatActions) :
    formatVersion ((splitPipes text).drop 1).head? = some (.fin w.version) ∨
      (w.version = 0 ∧ formatVersion ((splitPipes text).drop 1).head? = none) := by
  have hversion := hreads.version
  have hvalues : readValues w.action w.segments = trimSegments ((splitPipes text).drop 1) := by
    rw [readValues, injectVersion, hreads.segments]
    simp [haction]
  rw [hvalues] at hversion
  cases hraw : (splitPipes text).drop 1 with
  | nil =>
    rw [hraw] at hversion
    exact .inl hversion
  | cons v rest =>
    rw [hraw] at hversion
    have hversion : formatVersion (some (trim v)) = some (.fin w.version) := hversion
    rw [List.head?_cons]
    by_cases hblank : trim v = ""
    · by_cases hempty : v = ""
      · rw [hempty] at hversion ⊢
        exact .inl hversion
      · right
        rw [hblank] at hversion
        have hzero : (JsNum.fin 0) = .fin w.version := Option.some.inj hversion
        exact ⟨Nat.cast_eq_zero.1 (JsNum.fin.inj hzero).symm, formatVersion_blank hblank hempty⟩
    · left
      rw [← formatVersion_trim hblank]
      exact hversion

theorem airdropLegCount_reads (hreads : HeadReads text w) (haction : w.action ∉ legacyFormatActions)
    (hsafe : (JsNum.fin w.version).safeNat? = some w.version) :
    airdropLegCount ((splitPipes text).drop 1) =
      chargedLegs w.version ((splitPipes text).drop 1).length := by
  rcases formatVersion_reads hreads haction with h | ⟨hzero, h⟩
  · exact airdropLegCount_eq (by rw [h, Option.bind_some, hsafe])
  · rw [airdropLegCount, h, hzero]
    rfl

/-- The last leg of a format 3 has only its tick. -/
def ShortLastLeg (text : String) (c : ParsedCommand) : Prop :=
  c.version = 3 ∧ 6 ≤ ((splitPipes text).drop 1).length ∧ ((splitPipes text).drop 1).length % 4 = 2

instance (c : ParsedCommand) : Decidable (ShortLastLeg text c) :=
  inferInstanceAs (Decidable (_ ∧ _ ∧ _))

/-- The legs of an airdrop that are charged are those that the decoder reads, or one fewer. -/
theorem airdropLegs_charged {legacy : Bool} {c : ParsedCommand}
    (h : parse text false legacy = .ok (.command c)) (haction : c.action = "AIRDROP") :
    airdropLegCount ((splitPipes text).drop 1) + (if ShortLastLeg text c then 1 else 0) =
      c.legCount := by
  obtain ⟨w, s, -, hreads, -, -, hgroup, -, rfl⟩ := parse_command_reads h
  have hname : w.action = "AIRDROP" := haction
  have hlegacy : w.action ∉ legacyFormatActions := by
    rw [hname]
    decide
  have hlen : w.valueSegs.length = max 1 ((splitPipes text).drop 1).length := by
    rw [hreads.valueSegs, readValues, injectVersion, hreads.segments]
    simp [hlegacy, trimSegments]
    omega
  have hfields := hreads.fieldNames
  rw [hname] at hfields
  have hwidths := airdrop_legWidths hfields
  have hsafe : (JsNum.fin w.version).safeNat? = some w.version :=
    JsNum.safeNat?_natCast (by omega)
  have hversion : (commandOf w s).version = w.version := rfl
  rw [legCount_commandOf hgroup, hlen, airdropLegCount_reads hreads hlegacy hsafe]
  simp only [ShortLastLeg, hversion]
  generalize ((splitPipes text).drop 1).length = n
  rcases hwidths with ⟨hv, hw⟩ | ⟨hv, hw⟩ | ⟨hv, hw⟩ | ⟨hv, hw⟩
  · rw [hv, hw]
    rfl
  · have hspec := @legCountOf_spec 2 3 (max 1 n) (by omega)
    rw [hv, hw]
    simp only [chargedLegs]
    split_ifs <;> omega
  · have hspec := @legCountOf_spec 3 2 (max 1 n) (by omega)
    rw [hv, hw]
    simp only [chargedLegs]
    split_ifs <;> omega
  · have hspec := @legCountOf_spec 4 1 (max 1 n) (by omega)
    rw [hv, hw]
    simp only [chargedLegs, true_and]
    split_ifs <;> omega

theorem subCommandWeight_airdrop (h : commandAction text = "AIRDROP") (active : Bool) :
    subCommandWeight text active =
      25 * if active then airdropLegCount ((splitPipes text).drop 1) else 1 := by
  have hdeploy : ¬(commandAction text = "DEPLOY" ∧
      formatVersion (splitPipes text)[1]? = some (.fin 4)) := by
    rintro ⟨hdeploy, -⟩
    rw [h] at hdeploy
    exact absurd hdeploy (by decide)
  rw [subCommandWeight, if_neg hdeploy, h, airdropLegFactor]
  cases active with
  | false => rfl
  | true => rfl

/-- **Weights are well founded**: a command weighs at least one, so that a batch of too many commands
is too heavy; and an airdrop weighs its 25 for each leg that the decoder reads, where legs count. -/
theorem batchWeight_wellFounded :
    (∀ command active, 1 ≤ subCommandWeight command active) ∧
    (∀ commands active, BATCH_WEIGHT_BUDGET < commands.length →
      BATCH_COMMAND_LIMIT < commands.length ∧
        BATCH_WEIGHT_BUDGET < batchWeight commands active) ∧
    ∀ text legacy c, parse text false legacy = .ok (.command c) → c.action = "AIRDROP" →
      subCommandWeight text false = 25 ∧
      subCommandWeight text true = 25 * (c.legCount - if ShortLastLeg text c then 1 else 0) := by
  refine ⟨one_le_subCommandWeight, fun commands active h => ⟨h, ?_⟩, fun text legacy c h haction => ?_⟩
  · exact h.trans_le (length_le_batchWeight commands active)
  · have hcharged := airdropLegs_charged h haction
    obtain ⟨w, s, -, hreads, -, -, -, -, rfl⟩ := parse_command_reads h
    have hname : commandAction text = "AIRDROP" := hreads.action.symm.trans haction
    refine ⟨subCommandWeight_airdrop hname false, ?_⟩
    rw [subCommandWeight_airdrop hname true, if_pos rfl, ← hcharged, Nat.add_sub_cancel]

/-- The legs that the decoder reads in a string. -/
def legsRead (text : String) : Option ℕ :=
  match parse text false false with
  | .ok (.command c) => some c.legCount
  | _ => none

/-- A second leg with a tick alone is read, and not charged. -/
theorem airdrop_shortLastLeg :
    legsRead "AIRDROP|3|JDOG|1|5|memo|CAT" = some 2 ∧
      subCommandWeight "AIRDROP|3|JDOG|1|5|memo|CAT" true = 25 := by decide +kernel

end Legs

/-! ### Actions and ticks -/

section Ticks

variable {text : String} {w : WireHead} {s : Shape}

/-- A version token with blanks around it that make it longer than two characters. -/
def PaddedVersion (text : String) : Prop :=
  ∃ v ∈ ((splitPipes text).drop 1).head?, isNumericText v = true ∧ utf16Length (trim v) ≤ 2 ∧
    2 < utf16Length v

/-- A reference `^id` with a blank in front of it. -/
def PaddedCaret (text : String) : Prop :=
  ∃ tick ∈ (commandParams text)[1]?, (trim tick).toList.head? = some '^' ∧
    tick.toList.head? ≠ some '^'

theorem isLegacyActionFormat_trim (h : ¬PaddedVersion text) :
    isLegacyActionFormat (trimSegments ((splitPipes text).drop 1)) =
      isLegacyActionFormat ((splitPipes text).drop 1) := by
  cases hraw : (splitPipes text).drop 1 with
  | nil => rfl
  | cons v rest =>
    have hle := utf16Length_trim_le v
    have hpad : ¬(isNumericText v = true ∧ utf16Length (trim v) ≤ 2 ∧ 2 < utf16Length v) :=
      fun hpad => h ⟨v, by rw [hraw]; rfl, hpad⟩
    rw [trimSegments, List.map_cons, isLegacyActionFormat, isLegacyActionFormat,
      isNumericText_trim]
    cases hnumeric : isNumericText v with
    | false => simp
    | true =>
      have hlen : 2 < utf16Length (trim v) ↔ 2 < utf16Length v := by
        constructor
        · omega
        · intro hlong
          by_contra hshort
          exact hpad ⟨hnumeric, by omega, hlong⟩
      simp [hlen]

/-- The tick that the limit scan reads stands first among the values of the decoder. -/
theorem commandTick_reads (hreads : HeadReads text w) (h : ¬PaddedVersion text) :
    commandTick text = w.valueSegs.getD 1 "" := by
  have haction : w.action = commandAction text := hreads.action
  rw [hreads.valueSegs, readValues, commandTick, commandParams, injectVersion, injectVersion,
    hreads.segments, isLegacyActionFormat_trim h, haction]
  split_ifs
  · rw [← getD_trimSegments]
    cases (splitPipes text).drop 1 <;> rfl
  · rw [← getD_trimSegments]
    cases trimSegments ((splitPipes text).drop 1) <;> rfl

/-- A field after the version is the first value, of the first leg if the format has legs. -/
theorem lookup_first {name : String} (hwf : s.WellFormed) (h : s.slots[1]? = some (.field name))
    (vs : List String) :
    ∃ p, (s.mapped vs).params.lookup name = some p ∧ p.first = vs.getD 1 "" := by
  obtain ⟨-, hversion, hgroup⟩ := hwf
  -- the parameters of slots that stand once begin with the first of them
  have hsingle : ∀ names : List String, "VERSION" ∉ name :: names → ∀ tail,
      (singleParams (fixed (name :: names)) vs 0 ++ tail).lookup name =
        some (.one (vs.getD 1 "")) := by
    intro names hnames tail
    rw [singleParams_fixed hnames]
    simp [List.zipIdx_cons]
  cases s with
  | flat names =>
    cases names with
    | nil => cases h
    | cons first names =>
      obtain rfl : first = name := by simpa [Shape.slots, fixed] using h
      exact ⟨_, by simpa [Shape.mapped] using hsingle names hversion [], rfl⟩
  | rested names tail =>
    cases names with
    | nil => simp [Shape.slots, variadic, fixed] at h
    | cons first names =>
      obtain rfl : first = name := by simpa [Shape.slots, variadic, fixed] using h
      have hnames : "VERSION" ∉ first :: names := fun hv => hversion (List.mem_append_left _ hv)
      exact ⟨_, hsingle names hnames _, rfl⟩
  | legged lead group trail =>
    have hlead : "VERSION" ∉ lead := fun hv => hversion (by simp [Shape.names, hv])
    cases lead with
    | cons first lead =>
      obtain rfl : first = name := by simpa [Shape.slots, fixed] using h
      refine ⟨.one (vs.getD 1 ""), ?_, rfl⟩
      simp only [Shape.mapped, mapRepeatedFields, List.append_assoc]
      exact hsingle lead hlead _
    | nil =>
      cases group with
      | nil => exact absurd rfl (hgroup _ _ _ rfl)
      | cons first group =>
        obtain rfl : first = name := by simpa [Shape.slots, fixed] using h
        let per := (List.map Slot.field (first :: group)).length
        let base := (fixed []).length + (trail.map Slot.field).length
        have hper : 0 < per := by simp [per]
        obtain ⟨n, hn⟩ := Nat.exists_eq_add_of_le'
          (@legCountOf_spec per base vs.length hper).1
        refine ⟨.many ((List.range (legCountOf per base vs.length)).map fun i =>
          vs.getD ((fixed []).length + i * per + 0) ""), ?_, ?_⟩
        · simp only [Shape.mapped, mapRepeatedFields, List.append_assoc, List.map_cons,
            List.zipIdx_cons]
          rw [List.cons_append]
          exact List.lookup_cons_self
        · rw [hn, List.range_succ_eq_map]
          simp [Param.first, fixed]

/-- Every format of an issuance leads with its tick. -/
theorem issue_tick {version : ℕ} {fields : List Slot}
    (h : getFormatFields "ISSUE" version = some fields) : fields[1]? = some (.field "TICK") := by
  obtain ⟨versions, hversions, hfields⟩ := Option.bind_eq_some_iff.1 h
  have hall : ∀ entry ∈ formats, entry.1 = "ISSUE" → ∀ format ∈ entry.2,
      format.2[1]? = some (.field "TICK") := by decide
  exact hall _ (Loop.mem_of_lookup hversions) rfl _ (Loop.mem_of_lookup hfields)

/-- An issuance of a child: the tick has a dot, and is no reference. -/
def IsChildTick (tick : String) : Prop := '.' ∈ tick.toList ∧ tick.toList.head? ≠ some '^'

instance (tick : String) : Decidable (IsChildTick tick) := inferInstanceAs (Decidable (_ ∧ _))

theorem classifyIssueTick_eq (tick : String) :
    classifyIssueTick (some tick) = if IsChildTick tick then CHILD_ISSUE_KEY else "ISSUE" := by
  rw [classifyIssueTick]
  by_cases hcaret : tick.toList.head? = some '^'
  · rw [if_pos hcaret, if_neg fun h => h.2 hcaret]
  · by_cases hdot : '.' ∈ tick.toList
    · rw [if_neg hcaret, if_pos (by simpa using hdot), if_pos ⟨hdot, hcaret⟩]
    · rw [if_neg hcaret, if_neg (by simpa using hdot), if_neg fun h => hdot h.1]

/-- The raw tick is a child's when the tick that is read is one. -/
theorem classifyIssueTick_reads (h : ¬PaddedCaret text) :
    classifyIssueTick (commandParams text)[1]? =
      if IsChildTick (commandTick text) then CHILD_ISSUE_KEY else "ISSUE" := by
  rw [commandTick, List.getD_eq_getElem?_getD]
  cases htick : (commandParams text)[1]? with
  | none => rfl
  | some tick =>
    have hcaret : (trim tick).toList.head? = some '^' ↔ tick.toList.head? = some '^' := by
      constructor
      · intro htrim
        by_contra hraw
        exact h ⟨tick, htick, htrim, hraw⟩
      · exact head?_trim (by decide)
    have hchild : IsChildTick (trim tick) ↔ IsChildTick tick := by
      rw [IsChildTick, IsChildTick, mem_trim (by decide)]
      exact and_congr_right fun _ => not_congr hcaret
    rw [classifyIssueTick_eq, Option.getD_some]
    simp only [hchild]

theorem commandAction_of_parse {legacy : Bool} {r : DecodedAction}
    (h : parse text false legacy = .ok r) : commandAction text = r.action := by
  cases r with
  | command c =>
    obtain ⟨w, s, -, hreads, -, -, -, -, rfl⟩ := parse_command_reads h
    exact hreads.action.symm
  | batch version body commands actionString =>
    have htop := parseTopLevel_of_parse h
    rw [parseTopLevel, Checks.bind_eq_ok] at htop
    obtain ⟨w, hw, hrest⟩ := htop
    split_ifs at hrest with hbatch
    · exact (parseHead_reads hw).action.symm.trans hbatch
    · -- what is no batch gives no batch
      rw [Checks.bind_eq_ok] at hrest
      obtain ⟨c, -, hc⟩ := hrest
      cases hc

/-- **Commands are classified as the decoder reads them**: by its action; by its tick, where a format
leads with one, but for a version that blanks make longer than two characters; and an issuance as a
child's when its tick has a dot and is no reference, but for a blank in front of a reference. -/
theorem classification_reads (text : String) (legacy : Bool) :
    (∀ r, parse text false legacy = .ok r → r.action ≠ "ISSUE" →
      classifyCommand text = r.action) ∧
    (∀ c, parse text false legacy = .ok (.command c) → ¬PaddedVersion text →
      ∀ fields, getFormatFields c.action c.version = some fields →
        fields[1]? = some (.field "TICK") →
          ∃ p, c.params.lookup "TICK" = some p ∧ commandTick text = p.first) ∧
    ∀ c, parse text false legacy = .ok (.command c) → c.action = "ISSUE" →
      ¬PaddedVersion text → ¬PaddedCaret text →
        ∃ p, c.params.lookup "TICK" = some p ∧
          classifyCommand text = if IsChildTick p.first then CHILD_ISSUE_KEY else "ISSUE" := by
  have htick : ∀ c, parse text false legacy = .ok (.command c) → ¬PaddedVersion text →
      ∀ fields, getFormatFields c.action c.version = some fields →
        fields[1]? = some (.field "TICK") →
          ∃ p, c.params.lookup "TICK" = some p ∧ commandTick text = p.first := by
    intro c h hversion fields hfields hfirst
    obtain ⟨w, s, -, hreads, -, hslots, -, hwf, rfl⟩ := parse_command_reads h
    have hfields : getFormatFields w.action w.version = some fields := hfields
    rw [hreads.fieldNames, Option.some.injEq, hslots] at hfields
    rw [← hfields] at hfirst
    obtain ⟨p, hp, hvalue⟩ := lookup_first hwf hfirst w.valueSegs
    exact ⟨p, hp, (commandTick_reads hreads hversion).trans hvalue.symm⟩
  refine ⟨fun r h hissue => ?_, htick, fun c h haction hversion hcaret => ?_⟩
  · rw [classifyCommand, commandAction_of_parse h, if_neg hissue]
  · have hname : commandAction text = "ISSUE" := (commandAction_of_parse h).trans haction
    obtain ⟨w, s, -, hreads, -, -, -, -, rfl⟩ := parse_command_reads h
    have hfields := hreads.fieldNames
    have hfields' := hfields
    rw [show w.action = "ISSUE" from haction] at hfields'
    obtain ⟨p, hp, hvalue⟩ := htick _ h hversion _ hfields (issue_tick hfields')
    refine ⟨p, hp, ?_⟩
    rw [classifyCommand, if_pos hname, classifyIssueTick_reads hcaret, hvalue]

/-- The tick that the decoder reads in a string. -/
def tickRead (text : String) : Option Param :=
  match parse text false false with
  | .ok (.command c) => c.params.lookup "TICK"
  | _ => none

/-- A reference with a dot is no child, and a format whose tick does not come first is not read. -/
theorem classification_differs :
    (tickRead "ISSUE|0|^1.5" = some (.one "^1.5") ∧ classifyCommand "ISSUE|0|^1.5" = "ISSUE") ∧
      tickRead "DEPOSIT|0|7|JDOG|5" = some (.one "JDOG") ∧ commandTick "DEPOSIT|0|7|JDOG|5" = "7" := by
  decide +kernel

end Ticks

end XChainSdk
