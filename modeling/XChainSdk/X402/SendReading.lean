import XChainSdk.Decoder.Reading
import XChainSdk.X402.Amounts

/-!
# The two readers of a `SEND`

`parseActionString` reads a mempool text by the segment counts of its own table, and the decoder by
the formats of the protocol.

* `ParsedCommand.sendOutputs` : the outputs that a decoded `SEND` describes.
* `formatVersion_short` : on a version of one or two characters, the two readers of it agree.
* `ReadsAlike` : what a text must satisfy for the two readers to agree on it.
* `parseActionString_exact` : **they agree on exactly those texts**.
-/

namespace XChainSdk

/-- Normalization that works between pipes and inside of blanks. -/
structure WireHost extends TextHost where
  normalizeNFC_splitPipes : ∀ s, splitPipes (normalizeNFC s) = (splitPipes s).map normalizeNFC
  normalizeNFC_trim : ∀ s, normalizeNFC (trim s) = trim (normalizeNFC s)

/-- A runtime without tables beyond ASCII. -/
def plainWireHost : WireHost := { plainTextHost with
  normalizeNFC_splitPipes := fun s => (List.map_id (splitPipes s)).symm
  normalizeNFC_trim := fun _ => rfl }

/-! ### Versions of one or two characters -/

/-- The characters of a number without an exponent. -/
def plainNumerals : List Char := "0123456789+-.".toList

theorem mem_plainNumerals_of_isDigit {c : Char} (h : c.isDigit = true) : c ∈ plainNumerals := by
  have hrange : 48 ≤ c.toNat ∧ c.toNat ≤ 57 := by
    simpa [Char.isDigit, UInt32.le_iff_toNat_le] using h
  rw [← Char.ofNat_toNat c]
  obtain ⟨h1, h2⟩ := hrange
  interval_cases c.toNat <;> decide

theorem isDigit_of_not_mem {c : Char} (h : c ∉ plainNumerals) : c.isDigit = false := by
  rw [← Bool.not_eq_true]
  exact fun hd => h (mem_plainNumerals_of_isDigit hd)

theorem splitSign_of_not_mem {c : Char} (h : c ∉ plainNumerals) (cs : List Char) :
    splitSign (c :: cs) = (false, c :: cs) := by
  rw [splitSign.eq_def]
  split
  · next he => cases he; exact absurd (by decide) h
  · next he => cases he; exact absurd (by decide) h
  · rfl

/-- No numeral starts with another character. -/
theorem unsignedDecimal_of_not_mem {c : Char} (h : c ∉ plainNumerals) (cs : List Char) :
    unsignedDecimal (c :: cs) = none := by
  have hpoint : c ≠ '.' := fun he => h (he ▸ by decide)
  simp [unsignedDecimal, isDigit_of_not_mem h, hpoint]

/-- A character outside of them makes a text of one or two characters no number. -/
theorem decimalLiteral_short {cs : List Char} (hlen : cs.length ≤ 2)
    (h : (decimalLiteral cs).isFinite = true) : ∀ c ∈ cs, c ∈ plainNumerals := by
  have hinf : ∀ us : List Char, us.length ≤ 2 → us ≠ "Infinity".toList := fun us hus he => by
    rw [he] at hus
    exact absurd hus (by decide)
  cases cs with
  | nil => exact fun c hc => absurd hc List.not_mem_nil
  | cons a rest =>
    have ha : a ∈ plainNumerals := by
      by_contra ha
      rw [decimalLiteral, splitSign_of_not_mem ha] at h
      dsimp only at h
      rw [if_neg (hinf _ hlen), unsignedDecimal_of_not_mem ha] at h
      cases h
    cases rest with
    | nil => simpa using ha
    | cons b rest =>
      obtain rfl : rest = [] := List.length_eq_zero_iff.1 (by simpa using hlen)
      have hb : b ∈ plainNumerals := by
        by_contra hb
        have hnan : ∀ a ∈ plainNumerals, decimalLiteral [a, b] = .nan := by
          intro a ha
          have hpoint : b ≠ '.' := fun he => hb (he ▸ by decide)
          cases hdigit : a.isDigit with
          | true =>
            rw [decimalLiteral, splitSign_of_digits hdigit]
            dsimp only
            rw [if_neg (hinf _ (by simp))]
            simp [unsignedDecimal, hdigit, isDigit_of_not_mem hb, hpoint, exponentPart, splitSign]
          | false =>
            have hcases : a = '+' ∨ a = '-' ∨ a = '.' := by
              have hall : plainNumerals.all
                  (fun c => c.isDigit || c == '+' || c == '-' || c == '.') = true := by decide
              simpa [hdigit, or_assoc] using List.all_eq_true.1 hall a ha
            rcases hcases with rfl | rfl | rfl
            · rw [decimalLiteral, splitSign]
              dsimp only
              rw [if_neg (hinf _ (by simp)), unsignedDecimal_of_not_mem hb]
            · rw [decimalLiteral, splitSign]
              dsimp only
              rw [if_neg (hinf _ (by simp)), unsignedDecimal_of_not_mem hb]
            · have hfrac : unsignedDecimal ['.', b] = none := by
                simp [unsignedDecimal, isDigit_of_not_mem hb, hdigit]
              rw [decimalLiteral, show splitSign ['.', b] = (false, ['.', b]) from rfl]
              dsimp only
              rw [if_neg (hinf _ (by simp)), hfrac]
        rw [hnan a ha] at h
        cases h
      simp [ha, hb]

theorem length_le_utf16Length (s : String) : s.toList.length ≤ utf16Length s := by
  rw [utf16Length]
  induction s.toList with
  | nil => exact le_rfl
  | cons c cs ih =>
    rw [List.map_cons, List.sum_cons, List.length_cons]
    split_ifs <;> omega

/-- The number of a version of one or two characters has only the characters of a plain one. -/
theorem mem_plainNumerals_of_short {t : String} (ht : trim t = t) (hlen : utf16Length t ≤ 2)
    (h : (stringToNumber t).isFinite = true) : ∀ c ∈ t.toList, c ∈ plainNumerals := by
  have hchars : trimChars t.toList = t.toList := by
    have := congrArg String.toList ht
    rwa [trim, String.toList_ofList] at this
  have hlist := (length_le_utf16Length t).trans hlen
  rw [stringToNumber, hchars] at h
  split at h
  · next hnil => rw [hnil]; exact fun c hc => absurd hc List.not_mem_nil
  · next c cs heq =>
    obtain rfl : cs = [] := by
      rw [heq] at hlist
      exact List.length_eq_zero_iff.1 (by simpa using hlist)
    rw [heq] at hlist ⊢
    split_ifs at h
    · cases h
    · cases h
    · cases h
    · exact decimalLiteral_short hlist h
  · exact decimalLiteral_short hlist h

/-- The versions of a `SEND`. -/
def sendVersions : List ℕ := [0, 1, 2, 3]

/-- What `formatVersion` makes of a text that `Number` reads as the version of a `SEND`. -/
def versionsAgree (t : String) : Bool :=
  sendVersions.all fun n => stringToNumber t != .fin n || t == ".0" ||
    !isNumericText t || formatVersion (some t) == some (.fin n)

theorem versionsAgree_one :
    plainNumerals.all (fun a => versionsAgree (String.ofList [a])) = true := by decide +kernel

theorem versionsAgree_two : plainNumerals.all (fun a => plainNumerals.all fun b =>
    versionsAgree (String.ofList [a, b])) = true := by decide +kernel

/-- Such a version is read alike, but for `.0`, in which `parseInt` finds no digit. -/
theorem formatVersion_short {t : String} {n : ℕ} (ht : trim t = t)
    (hplain : isLegacyActionFormat [t] = false) (hn : n ∈ sendVersions)
    (hnum : stringToNumber t = .fin n) (hpoint : t ≠ ".0") :
    formatVersion (some t) = some (.fin n) := by
  simp only [isLegacyActionFormat, Bool.or_eq_false_iff, decide_eq_false_iff_not, not_lt,
    Bool.not_eq_false'] at hplain
  obtain ⟨hlen, hnumeric⟩ := hplain
  have hagree : versionsAgree t = true := by
    have hmem := mem_plainNumerals_of_short ht hlen (by rw [hnum]; rfl)
    have hlist := (length_le_utf16Length t).trans hlen
    have htext : t = String.ofList t.toList := String.ofList_toList.symm
    rw [htext]
    rcases hcs : t.toList with _ | ⟨a, _ | ⟨b, _ | ⟨c, cs⟩⟩⟩
    · -- a blank version is no number to the indexer
      rw [hcs] at htext
      rw [htext] at hnumeric
      exact absurd hnumeric (by decide)
    · exact List.all_eq_true.1 versionsAgree_one a (hmem a (by simp [hcs]))
    · have hall := List.all_eq_true.1 versionsAgree_two a (hmem a (by simp [hcs]))
      exact List.all_eq_true.1 hall b (hmem b (by simp [hcs]))
    · simp [hcs] at hlist
  simpa [hnum, hpoint, hnumeric] using List.all_eq_true.1 hagree n hn

theorem isAscii_of_short {t : String} (ht : trim t = t)
    (hplain : isLegacyActionFormat [t] = false) : IsAscii t := by
  simp only [isLegacyActionFormat, Bool.or_eq_false_iff, decide_eq_false_iff_not, not_lt,
    Bool.not_eq_false', isNumericText, Bool.and_eq_true] at hplain
  intro c hc
  have hascii : plainNumerals.all (fun c => decide (c.toNat < 128)) = true := by decide
  have hmem := mem_plainNumerals_of_short ht hplain.1 hplain.2.2 c hc
  simpa using List.all_eq_true.1 hascii c hmem

/-! ### What the decoder reads -/

/-- The value of a leg under a name, or the one that stands for every leg. -/
def ParsedCommand.valueOf (c : ParsedCommand) (leg : List (String × String)) (name : String) :
    String :=
  match leg.lookup name with
  | some value => value
  | none => match c.params.lookup name with
    | some (.one value) => value
    | _ => ""

/-- The outputs that a decoded `SEND` describes; a token goes by its name in capitals. -/
def ParsedCommand.sendOutputs (H : Host) (c : ParsedCommand) : List SendOutput :=
  (c.legs.getD [[]]).map fun leg =>
    ⟨.str (H.toUpperCase (c.valueOf leg "TICK")), .str (c.valueOf leg "AMOUNT"),
      .str (c.valueOf leg "DESTINATION"), .str (c.valueOf leg "MEMO")⟩

/-- The decoder takes the text for a `SEND` with these outputs. -/
def DecodesAsSend (H : Host) (text : String) (legacy : Bool) (outputs : List SendOutput) : Prop :=
  ∃ c, parse text false legacy = .ok (.command c) ∧ c.action = "SEND" ∧ c.sendOutputs H = outputs

/-- The shapes of the formats of a `SEND`. -/
def sendShape : ℕ → Shape
  | 0 => .flat ["TICK", "AMOUNT", "DESTINATION", "MEMO"]
  | 1 => .legged ["TICK"] ["AMOUNT", "DESTINATION"] ["MEMO"]
  | 2 => .legged [] ["TICK", "AMOUNT", "DESTINATION"] ["MEMO"]
  | _ => .legged [] ["TICK", "AMOUNT", "DESTINATION", "MEMO"] []

theorem getFormatFields_send : ∀ n ∈ sendVersions,
    getFormatFields "SEND" n = some (sendShape n).slots ∧
      getRepeatedGroup (sendShape n).slots = some (sendShape n).group? := by decide

theorem mem_sendVersions {n : ℕ} {fields : List Slot} (h : getFormatFields "SEND" n = some fields) :
    n ∈ sendVersions := by
  have hversions : formats.lookup "SEND" =
      some (sendVersions.map fun n => (n, (sendShape n).slots)) := by decide
  rw [getFormatFields, hversions, Option.bind_some] at h
  obtain ⟨m, hm, he⟩ := List.mem_map.1 (Loop.mem_of_lookup h)
  cases he
  exact hm

/-- The values under the segments that an output of the table names. -/
def outputAt (H : Host) (value : ℕ → String) (m : OutputMap) : SendOutput :=
  ⟨.str (H.toUpperCase (value m.tick)), .str (value m.amount), .str (value m.destination),
    .str (value m.memo)⟩

/-- The layout of a version. -/
def layoutOf (n : ℕ) : SendLayout := (SEND_LAYOUTS.lookup (n : ℚ)).getD ⟨0, []⟩

theorem sendLayout_eq_some {version : String} {layout : SendLayout}
    (h : sendLayout version = some layout) :
    ∃ n ∈ sendVersions, stringToNumber version = .fin n ∧ layout = layoutOf n := by
  rw [sendLayout] at h
  split at h
  · next q hq =>
    rw [hq]
    have hmem := Loop.mem_of_lookup h
    simp only [SEND_LAYOUTS, List.mem_cons, Prod.mk.injEq, List.not_mem_nil, or_false] at hmem
    rcases hmem with ⟨rfl, rfl⟩ | ⟨rfl, rfl⟩ | ⟨rfl, rfl⟩ | ⟨rfl, rfl⟩
    · exact ⟨0, by decide, by norm_num, rfl⟩
    · exact ⟨1, by decide, by norm_num, rfl⟩
    · exact ⟨2, by decide, by norm_num, rfl⟩
    · exact ⟨3, by decide, by norm_num, rfl⟩
  · cases h

/-- The decoder finds each value at the segment of the table; a version of one leg may have values
past its last slot. -/
theorem sendOutputs_commandOf (H : Host) {w : WireHead} {n : ℕ} (hn : n ∈ sendVersions)
    (hlen : n = 0 ∨ w.valueSegs.length + 1 = (layoutOf n).count) :
    (commandOf w (sendShape n)).sendOutputs H =
      (layoutOf n).outputs.map (outputAt H fun i => w.valueSegs.getD (i - 1) "") := by
  simp only [sendVersions, List.mem_cons, List.not_mem_nil, or_false] at hn
  rcases hn with rfl | rfl | rfl | rfl
  · rfl
  · have hlen : w.valueSegs.length = 7 := Nat.succ.inj (hlen.resolve_left (by decide))
    have hlegs : legCountOf 2 3 w.valueSegs.length = 2 := by rw [hlen]; rfl
    simp only [ParsedCommand.sendOutputs, commandOf, sendShape, Shape.mapped, mapRepeatedFields]
    rw [show legCountOf (["AMOUNT", "DESTINATION"].map Slot.field).length
      ((fixed ["TICK"]).length + (["MEMO"].map Slot.field).length) w.valueSegs.length = 2 from hlegs]
    rfl
  · have hlen : w.valueSegs.length = 8 := Nat.succ.inj (hlen.resolve_left (by decide))
    have hlegs : legCountOf 3 2 w.valueSegs.length = 2 := by rw [hlen]; rfl
    simp only [ParsedCommand.sendOutputs, commandOf, sendShape, Shape.mapped, mapRepeatedFields]
    rw [show legCountOf (["TICK", "AMOUNT", "DESTINATION"].map Slot.field).length
      ((fixed []).length + (["MEMO"].map Slot.field).length) w.valueSegs.length = 2 from hlegs]
    rfl
  · have hlen : w.valueSegs.length = 9 := Nat.succ.inj (hlen.resolve_left (by decide))
    have hlegs : legCountOf 4 1 w.valueSegs.length = 2 := by rw [hlen]; rfl
    simp only [ParsedCommand.sendOutputs, commandOf, sendShape, Shape.mapped, mapRepeatedFields]
    rw [show legCountOf (["TICK", "AMOUNT", "DESTINATION", "MEMO"].map Slot.field).length
      ((fixed []).length + (([] : List String).map Slot.field).length) w.valueSegs.length = 2
      from hlegs]
    rfl

section Decoding

variable {text : String} {legacy : Bool}

/-- The text passes the size gate of the decoder. -/
def FitsCarrier (text : String) (legacy : Bool) : Prop :=
  (carrierCeiling text.utf8ByteSize legacy).size ≤ (carrierCeiling text.utf8ByteSize legacy).limit

/-- The segments with the version that the indexer reads of them. -/
theorem readSegments_send {n : ℕ} {segments : List String} (hn : n ≤ 2 ^ 53)
    (h : formatVersion (readValues "SEND" segments).head? = some (.fin n)) :
    (readSegments "SEND" segments false).version = some (.fin n) ∧
      (readSegments "SEND" segments false).valueSegs =
        natText n :: (readValues "SEND" segments).drop 1 := by
  have hv : (readVersion "SEND" (trimSegments (segments.drop 1))).version = some (.fin n) := h
  simp only [readSegments, Bool.false_eq_true, if_false, hv]
  refine ⟨trivial, ?_⟩
  rw [numberToString_natCast hn]
  rfl

/-- The start of a `SEND`. -/
theorem parseHead_send {n : ℕ} (haction : expandAlias ((splitPipes text).headD "") = "SEND")
    (hn : n ∈ sendVersions)
    (hversion : formatVersion (readValues "SEND" (splitPipes text)).head? = some (.fin n)) :
    ∃ w, parseHead text false = .ok w ∧ w.action = "SEND" ∧ w.version = n ∧
      w.fieldNames = (sendShape n).slots ∧
      w.valueSegs = natText n :: (readValues "SEND" (splitPipes text)).drop 1 := by
  have hformat := (getFormatFields_send n hn).1
  rw [getFormatFields] at hformat
  obtain ⟨versions, hversions, hfields⟩ := Option.bind_eq_some_iff.1 hformat
  have hsmall : n < 2 ^ 53 := by
    have hall : ∀ n ∈ sendVersions, n < 4 := by decide
    have := hall n hn
    omega
  obtain ⟨hread, hvalues⟩ := readSegments_send hsmall.le hversion
  refine ⟨{ rawAction := (splitPipes text).headD ""
            action := "SEND"
            version := n
            fieldNames := (sendShape n).slots
            segments := splitPipes text
            valueSegs := natText n :: (readValues "SEND" (splitPipes text)).drop 1
            legacy := (readSegments "SEND" (splitPipes text) false).legacy },
    ?_, rfl, rfl, rfl, rfl⟩
  rw [parseHead]
  simp only [haction]
  rw [hversions]
  simp only [hread, hvalues]
  rw [Option.bind_some, JsNum.safeNat?_natCast hsmall]
  dsimp only
  rw [hfields]
  rfl

/-- A text decodes as a `SEND` by its first segment, its size, and the version that the indexer
reads. -/
theorem decodesAsSend_iff {H : Host} {outputs : List SendOutput} (hne : text ≠ "") :
    DecodesAsSend H text legacy outputs ↔
      FitsCarrier text legacy ∧ expandAlias ((splitPipes text).headD "") = "SEND" ∧
        ∃ w n, n ∈ sendVersions ∧
          formatVersion (readValues "SEND" (splitPipes text)).head? = some (.fin n) ∧
          w.valueSegs = natText n :: (readValues "SEND" (splitPipes text)).drop 1 ∧
          (commandOf w (sendShape n)).sendOutputs H = outputs := by
  constructor
  · rintro ⟨c, hparse, haction, houtputs⟩
    obtain ⟨w, s, hw, hreads, -, hslots, hgroup, -, rfl⟩ := parse_command_reads hparse
    have hsend : w.action = "SEND" := haction
    have hfits : FitsCarrier text legacy := by
      simp only [parse, Bool.false_eq_true, false_and, if_false] at hparse
      split_ifs at hparse with h1 h2
      simpa [FitsCarrier] using h2
    have hfields := hreads.fieldNames
    rw [hsend] at hfields
    have hn := mem_sendVersions hfields
    have hslots' : w.fieldNames = (sendShape w.version).slots := by
      rw [(getFormatFields_send _ hn).1] at hfields
      exact (Option.some.inj hfields).symm
    have hgroup' : getRepeatedGroup w.fieldNames = some (sendShape w.version).group? := by
      rw [hslots']
      exact (getFormatFields_send _ hn).2
    have heq : commandOf w s = commandOf w (sendShape w.version) := Except.ok.inj
      ((parseFields_eq hslots hgroup).symm.trans (parseFields_eq hslots' hgroup'))
    refine ⟨hfits, hreads.action.symm.trans hsend, w, w.version, hn, ?_, ?_, ?_⟩
    · rw [← hreads.version, hsend, hreads.segments]
    · rw [hreads.valueSegs, hsend, hreads.segments]
    · rw [← heq]
      exact houtputs
  · rintro ⟨hfits, haction, w, n, hn, hversion, hvalues, houtputs⟩
    obtain ⟨w', hw', hsend, hversion', hslots, hvalues'⟩ := parseHead_send haction hn hversion
    have hgroup : getRepeatedGroup w'.fieldNames = some (sendShape n).group? := by
      rw [hslots]
      exact (getFormatFields_send n hn).2
    refine ⟨commandOf w' (sendShape n), ?_, hsend, ?_⟩
    · have hbatch : w'.action ≠ "BATCH" := by
        rw [hsend]
        decide
      simp only [parse, Bool.false_eq_true, false_and, if_false]
      rw [if_neg hne, if_neg fun h => absurd hfits (not_le.2 h.2), parseTopLevel, hw']
      change (if w'.action = "BATCH" then parseBatch w'
        else (parseFields w' false >>= fun c => pure (.command c))) = _
      rw [if_neg hbatch, parseFields_eq hslots hgroup]
      rfl
    · rw [← houtputs]
      simp only [ParsedCommand.sendOutputs, ParsedCommand.valueOf, commandOf, hvalues, hvalues']

end Decoding

/-! ### Where the readers agree -/

/-- How far in front of the written fields the decoder reads: one where it supplies the version. -/
def versionShift (raw : List String) : ℕ :=
  if isLegacyActionFormat (trimSegments (raw.drop 1)) then 1 else 0

/-- The fields of one output read alike when they are trimmed, as the decoder does it, and when they
are normalized. -/
structure SameOutput (H : TextHost) (raw : List String) (shift : ℕ) (m : OutputMap) : Prop where
  tick : H.toUpperCase (trim (raw.getD (m.tick - shift) "")) =
    H.toUpperCase (H.normalizeNFC (raw.getD m.tick ""))
  amount : trim (raw.getD (m.amount - shift) "") = H.normalizeNFC (raw.getD m.amount "")
  destination : trim (raw.getD (m.destination - shift) "") =
    H.normalizeNFC (raw.getD m.destination "")
  memo : trim (raw.getD (m.memo - shift) "") = trim (H.normalizeNFC (raw.getD m.memo ""))

/-- What a text must satisfy for the two readers of it to agree. -/
structure ReadsAlike (H : TextHost) (text : String) (legacy : Bool) : Prop where
  fits : FitsCarrier text legacy
  /-- The action is written out in capitals, without blanks. -/
  action : (splitPipes text).getD 0 "" = "SEND"
  /-- The version is supplied and zero, or it is written and no `.0`. -/
  version : if versionShift (splitPipes text) = 1
    then stringToNumber (trim (H.normalizeNFC ((splitPipes text).getD 1 ""))) = .fin 0
    else trim ((splitPipes text).getD 1 "") ≠ ".0"
  outputs : ∀ layout,
    sendLayout (trim (H.normalizeNFC ((splitPipes text).getD 1 ""))) = some layout →
    ∀ m ∈ layout.outputs, SameOutput H (splitPipes text) (versionShift (splitPipes text)) m

/-- What an accepted `SEND` passed through. -/
theorem parseActionString_send {H : TextHost} {M : MathJs} {text : String} {parsed : ParsedAction}
    (h : parseActionString H M (.str text) = some parsed) (hsend : parsed.outputs ≠ []) :
    ∃ layout, text ≠ "" ∧
      H.toUpperCase (trim ((splitPipes (H.normalizeNFC text)).getD 0 "")) = "SEND" ∧
      sendLayout (trim ((splitPipes (H.normalizeNFC text)).getD 1 "")) = some layout ∧
      (splitPipes (H.normalizeNFC text)).length = layout.count ∧
      layout.outputs.mapM (sendOutput H M (splitPipes (H.normalizeNFC text))) =
        some parsed.outputs := by
  have hne : text ≠ "" := by
    rintro rfl
    cases h
  rw [parseActionString.eq_def] at h
  split at h
  · cases h
  · next heq =>
    cases heq
    simp only [← splitPipes.eq_def] at h
    split_ifs at h with hname haction
    · cases h
      exact absurd rfl hsend
    · split at h
      · cases h
      · next layout hlayout =>
        split_ifs at h with hcount
        obtain ⟨outputs, houtputs, rfl⟩ := Option.map_eq_some_iff.1 h
        exact ⟨layout, hne, by simpa using haction, hlayout, by simpa using hcount, houtputs⟩
  · cases h

section Agreement

variable {H : WireHost} {M : MathJs} {text : String} {raw : List String}

/-- One output as `parseActionString` reads it. -/
def writtenAt (H : TextHost) (raw : List String) (m : OutputMap) : SendOutput :=
  ⟨.str (H.toUpperCase (H.normalizeNFC (raw.getD m.tick ""))),
    .str (H.normalizeNFC (raw.getD m.amount "")), .str (H.normalizeNFC (raw.getD m.destination "")),
    .str (trim (H.normalizeNFC (raw.getD m.memo "")))⟩

theorem getD_normalized (raw : List String) (i : ℕ) :
    (raw.map H.normalizeNFC).getD i "" = H.normalizeNFC (raw.getD i "") := by
  have hempty : H.normalizeNFC "" = "" := H.normalizeNFC_ascii "" (by decide)
  rw [List.getD_eq_getElem?_getD, List.getD_eq_getElem?_getD, List.getElem?_map]
  cases raw[i]? with
  | none => exact hempty.symm
  | some s => rfl

/-- Without a malformed amount the outputs are those of the layout. -/
theorem outputs_eq_written {maps : List OutputMap} {outputs : List SendOutput}
    (h : maps.mapM (sendOutput H.toTextHost M (raw.map H.normalizeNFC)) = some outputs) :
    outputs = maps.map (writtenAt H.toTextHost raw) := by
  induction maps generalizing outputs with
  | nil => cases h; rfl
  | cons m maps ih =>
    rw [List.mapM_cons] at h
    obtain ⟨o, ho, h⟩ := Option.bind_eq_some_iff.1 h
    obtain ⟨os, hos, h⟩ := Option.bind_eq_some_iff.1 h
    cases h
    rw [ih hos, List.map_cons]
    rw [sendOutput] at ho
    split_ifs at ho
    cases ho
    simp only [getD_normalized]
    rfl

theorem map_outputAt_eq_iff {maps : List OutputMap} {shift : ℕ} :
    maps.map (outputAt H.toHost fun i => trim (raw.getD (i - shift) "")) =
        maps.map (writtenAt H.toTextHost raw) ↔
      ∀ m ∈ maps, SameOutput H.toTextHost raw shift m := by
  rw [List.map_inj_left]
  refine forall₂_congr fun m _ => ?_
  simp only [outputAt, writtenAt, SendOutput.mk.injEq, Js.str.injEq]
  exact ⟨fun ⟨h1, h2, h3, h4⟩ => ⟨h1, h2, h3, h4⟩,
    fun h => ⟨h.tick, h.amount, h.destination, h.memo⟩⟩

/-- The value that the indexer reads in a slot after the version. -/
theorem getD_readValues {i : ℕ} (hi : 2 ≤ i) : (readValues "SEND" raw).getD (i - 1) "" =
    trim (raw.getD (i - versionShift raw) "") := by
  obtain ⟨i, rfl⟩ := Nat.exists_eq_add_of_le' hi
  have hlegacy : legacyFormatActions.contains "SEND" = true := by decide
  simp only [readValues, injectVersion, hlegacy, Bool.true_and, versionShift]
  split_ifs
  · change (trimSegments (raw.drop 1)).getD i "" = _
    rw [getD_trimSegments, List.getD_eq_getElem?_getD, List.getElem?_drop, Nat.add_comm 1 i]
    rfl
  · change (trimSegments (raw.drop 1)).getD (i + 1) "" = _
    rw [getD_trimSegments, List.getD_eq_getElem?_getD, List.getElem?_drop, Nat.add_comm 1 (i + 1)]
    rfl

/-- Every field of an output follows the version. -/
theorem two_le_of_mem_outputs : ∀ n ∈ sendVersions, ∀ m ∈ (layoutOf n).outputs,
    2 ≤ m.tick ∧ 2 ≤ m.amount ∧ 2 ≤ m.destination ∧ 2 ≤ m.memo := by decide

theorem sendOutputs_eq {w : WireHead} {n : ℕ} (hn : n ∈ sendVersions)
    (hvalues : w.valueSegs = natText n :: (readValues "SEND" raw).drop 1)
    (hlen : n = 0 ∨ w.valueSegs.length + 1 = (layoutOf n).count) :
    (commandOf w (sendShape n)).sendOutputs H.toHost =
      (layoutOf n).outputs.map
        (outputAt H.toHost fun i => trim (raw.getD (i - versionShift raw) "")) := by
  rw [sendOutputs_commandOf H.toHost hn hlen]
  refine List.map_congr_left fun m hm => ?_
  have hvalue : ∀ i, 2 ≤ i → w.valueSegs.getD (i - 1) "" =
      trim (raw.getD (i - versionShift raw) "") := by
    intro i hi
    obtain ⟨i, rfl⟩ := Nat.exists_eq_add_of_le' hi
    rw [← getD_readValues hi, hvalues]
    change ((readValues "SEND" raw).drop 1).getD i "" = (readValues "SEND" raw).getD (i + 1) ""
    rw [List.getD_eq_getElem?_getD, List.getElem?_drop, Nat.add_comm 1 i,
      List.getD_eq_getElem?_getD]
  obtain ⟨h1, h2, h3, h4⟩ := two_le_of_mem_outputs n hn m hm
  simp only [outputAt, hvalue _ h1, hvalue _ h2, hvalue _ h3, hvalue _ h4]

/-- The version of the indexer: the one it supplies, or the one that is written. -/
theorem head?_readValues (h : 2 ≤ raw.length) : (readValues "SEND" raw).head? =
    some (if versionShift raw = 1 then "0" else trim (raw.getD 1 "")) := by
  have hlegacy : legacyFormatActions.contains "SEND" = true := by decide
  obtain ⟨a, t, rest, rfl⟩ : ∃ a t rest, raw = a :: t :: rest := by
    rcases raw with _ | ⟨a, _ | ⟨t, rest⟩⟩
    · simp at h
    · simp at h
    · exact ⟨a, t, rest, rfl⟩
  rw [readValues, injectVersion, hlegacy, Bool.true_and, versionShift]
  have hhead : (trimSegments ((a :: t :: rest).drop 1)).head? =
      some (trim ((a :: t :: rest).getD 1 "")) := rfl
  cases isLegacyActionFormat (trimSegments ((a :: t :: rest).drop 1)) with
  | true => rfl
  | false => exact hhead

theorem length_readValues (h : 2 ≤ raw.length) :
    (readValues "SEND" raw).length + 1 = raw.length + versionShift raw := by
  have hlegacy : legacyFormatActions.contains "SEND" = true := by decide
  simp only [readValues, injectVersion, hlegacy, Bool.true_and, versionShift]
  split_ifs
  · simp [trimSegments]
    omega
  · simp [trimSegments]
    omega

/-- A supplied version is zero. -/
theorem versionShift_cases (h : 2 ≤ raw.length) : versionShift raw = 1 ∨
    versionShift raw = 0 ∧ isLegacyActionFormat [trim (raw.getD 1 "")] = false := by
  obtain ⟨a, t, rest, rfl⟩ : ∃ a t rest, raw = a :: t :: rest := by
    rcases raw with _ | ⟨a, _ | ⟨t, rest⟩⟩
    · simp at h
    · simp at h
    · exact ⟨a, t, rest, rfl⟩
  rw [versionShift]
  split_ifs with hlegacy
  · exact .inl rfl
  · exact .inr ⟨rfl, Bool.eq_false_iff.2 hlegacy⟩

/-- A written version is the same number to both readers, unless it is `.0`. -/
theorem formatVersion_written {k : ℕ} (hk : k ∈ sendVersions)
    (hplain : isLegacyActionFormat [trim (raw.getD 1 "")] = false)
    (hnum : stringToNumber (trim (H.normalizeNFC (raw.getD 1 ""))) = .fin k)
    (hpoint : trim (raw.getD 1 "") ≠ ".0") :
    formatVersion (some (trim (raw.getD 1 ""))) = some (.fin k) := by
  have htrim := trim_trim (raw.getD 1 "")
  rw [← H.normalizeNFC_trim, H.normalizeNFC_ascii _ (isAscii_of_short htrim hplain)] at hnum
  exact formatVersion_short htrim hplain hk hnum hpoint

/-- The action of a `SEND` is written out: the other spelling of it stays as it is in capitals. -/
theorem action_eq_send {a : String} (h : expandAlias a = "SEND")
    (hupper : H.toUpperCase (trim (H.normalizeNFC a)) = "SEND") : a = "SEND" := by
  have hcases : a = "SEND" ∨ a = "TRANSFER" := by
    rw [expandAlias] at h
    cases hlookup : actionAliases.lookup a with
    | none =>
      rw [hlookup] at h
      exact .inl h
    | some b =>
      rw [hlookup] at h
      have hmem := Loop.mem_of_lookup hlookup
      obtain rfl : b = "SEND" := h
      have hall : ∀ e ∈ actionAliases, e.2 = "SEND" → e.1 = "TRANSFER" := by decide
      exact .inr (hall _ hmem rfl)
  rcases hcases with rfl | rfl
  · rfl
  · have hascii : IsAscii "TRANSFER" := by decide
    have htrim : trim "TRANSFER" = "TRANSFER" := by decide
    rw [H.normalizeNFC_ascii _ hascii, htrim, H.toUpperCase_ascii _ hascii] at hupper
    exact absurd hupper (by decide)

/-- The version that the decoder reads is the one of the layout, where it is written. -/
theorem version_cases {n k : ℕ} (hlen : 2 ≤ raw.length) (hk : k ∈ sendVersions)
    (hnum : stringToNumber (trim (H.normalizeNFC (raw.getD 1 ""))) = .fin k)
    (h : formatVersion (some (if versionShift raw = 1 then "0" else trim (raw.getD 1 ""))) =
      some (.fin n)) :
    versionShift raw = 1 ∧ n = 0 ∨
      versionShift raw = 0 ∧ n = k ∧ trim (raw.getD 1 "") ≠ ".0" := by
  have hinj : ∀ {a b : ℕ}, some (JsNum.fin a) = some (JsNum.fin b) → a = b := fun he => by
    simpa using he
  rcases versionShift_cases hlen with hshift | ⟨hshift, hplain⟩
  · rw [if_pos hshift] at h
    have hzero : formatVersion (some "0") = some (.fin ((0 : ℕ) : ℚ)) := by decide +kernel
    exact .inl ⟨hshift, hinj (h.symm.trans hzero)⟩
  · rw [if_neg (by omega)] at h
    have hpoint : trim (raw.getD 1 "") ≠ ".0" := by
      intro he
      have hnan : formatVersion (some ".0") = some .nan := by decide +kernel
      rw [he, hnan] at h
      cases h
    exact .inr ⟨hshift, hinj (h.symm.trans (formatVersion_written hk hplain hnum hpoint)), hpoint⟩

/-- Wherever `parseActionString` finds the outputs of a `SEND`, the decoder finds the same ones
exactly when the text reads alike. -/
theorem parseActionString_exact {legacy : Bool} {parsed : ParsedAction}
    (h : parseActionString H.toTextHost M (.str text) = some parsed) (hsend : parsed.outputs ≠ []) :
    DecodesAsSend H.toHost text legacy parsed.outputs ↔ ReadsAlike H.toTextHost text legacy := by
  obtain ⟨layout, hne, haction, hlayout, hcount, houtputs⟩ := parseActionString_send h hsend
  rw [H.normalizeNFC_splitPipes] at haction hlayout hcount houtputs
  rw [getD_normalized] at haction hlayout
  rw [List.length_map] at hcount
  obtain ⟨k, hk, hnum, rfl⟩ := sendLayout_eq_some hlayout
  have hlen : 2 ≤ (splitPipes text).length := by
    have hall : ∀ n ∈ sendVersions, 2 ≤ (layoutOf n).count := by decide
    rw [hcount]
    exact hall k hk
  have hhead : (splitPipes text).headD "" = (splitPipes text).getD 0 "" := by
    cases splitPipes text <;> rfl
  have hvlen := length_readValues hlen
  have hwlen : ∀ {w : WireHead} {n : ℕ},
      w.valueSegs = natText n :: (readValues "SEND" (splitPipes text)).drop 1 →
      w.valueSegs.length + 1 = (layoutOf k).count + versionShift (splitPipes text) := by
    intro w n hvalues
    rw [hvalues, List.length_cons, List.length_drop]
    omega
  rw [decodesAsSend_iff hne, outputs_eq_written houtputs, hhead, head?_readValues hlen]
  constructor
  · rintro ⟨hfits, halias, w, n, hn, hversion, hvalues, hsame⟩
    obtain ⟨hshift, rfl⟩ | ⟨hshift, rfl, hpoint⟩ := version_cases hlen hk hnum hversion
    · -- one output, so that the layout is the one of version zero
      rw [sendOutputs_eq hn hvalues (.inl rfl)] at hsame
      have hsingle : ∀ n ∈ sendVersions, (layoutOf 0).outputs.length = (layoutOf n).outputs.length →
          n = 0 := by decide
      obtain rfl := hsingle k hk (by simpa using congrArg List.length hsame)
      refine ⟨hfits, action_eq_send halias haction, ?_, ?_⟩
      · rw [if_pos hshift, hnum]
        rfl
      · intro layout hlayout' m hm
        rw [hlayout] at hlayout'
        cases hlayout'
        exact map_outputAt_eq_iff.1 hsame m hm
    · rw [sendOutputs_eq hn hvalues (.inr (by rw [hwlen hvalues, hshift]; rfl))] at hsame
      refine ⟨hfits, action_eq_send halias haction, ?_, ?_⟩
      · rw [if_neg (by omega)]
        exact hpoint
      · intro layout hlayout' m hm
        rw [hlayout] at hlayout'
        cases hlayout'
        exact map_outputAt_eq_iff.1 hsame m hm
  · intro hread
    have hsame := map_outputAt_eq_iff.2 (hread.outputs _ hlayout)
    have halias : expandAlias ((splitPipes text).getD 0 "") = "SEND" := by
      rw [hread.action]
      rfl
    have hwrite : ∃ w : WireHead, w.valueSegs =
        natText k :: (readValues "SEND" (splitPipes text)).drop 1 :=
      ⟨⟨"", "", 0, [], [], _, false⟩, rfl⟩
    obtain ⟨w, hvalues⟩ := hwrite
    have hversion := hread.version
    refine ⟨hread.fits, halias, w, k, hk, ?_, hvalues, ?_⟩
    · obtain hshift | ⟨hshift, hplain⟩ := versionShift_cases hlen
      · rw [if_pos hshift, hnum] at hversion
        rw [if_pos hshift]
        obtain rfl : k = 0 := by simpa using hversion
        decide +kernel
      · rw [if_neg (by omega)] at hversion ⊢
        exact formatVersion_written hk hplain hnum hversion
    · rw [sendOutputs_eq hk hvalues ?_, hsame]
      obtain hshift | ⟨hshift, -⟩ := versionShift_cases hlen
      · rw [if_pos hshift, hnum] at hversion
        exact .inl (by simpa using hversion)
      · exact .inr (by rw [hwlen hvalues, hshift]; rfl)

end Agreement

/-! ### Texts that they read -/

theorem sendLayout_layoutOf {version : String} {n : ℕ} (hn : n ∈ sendVersions)
    (h : stringToNumber version = .fin n) : sendLayout version = some (layoutOf n) := by
  have hlookup : ∀ n ∈ sendVersions, (SEND_LAYOUTS.lookup (n : ℚ)).isSome = true := by
    decide
  obtain ⟨layout, hlayout⟩ := Option.isSome_iff_exists.1 (hlookup n hn)
  rw [sendLayout, h, layoutOf]
  dsimp only
  rw [hlayout]
  rfl

/-- A text with the segments of a layout, and positive amounts. -/
theorem parseActionString_of_segments (M : MathJs) {text : String} {raw : List String} {n : ℕ}
    (hraw : splitPipes text = raw) (hn : n ∈ sendVersions)
    (hcount : raw.length = (layoutOf n).count)
    (haction : IsAscii (trim (raw.getD 0 "")) ∧ asciiUpper (trim (raw.getD 0 "")) = "SEND")
    (hversion : stringToNumber (trim (raw.getD 1 "")) = .fin n)
    (hpos : ∀ m ∈ (layoutOf n).outputs, isPosNum M (raw.getD m.amount "") = true) :
    parseActionString plainTextHost M (.str text) = some ⟨"SEND", trim (raw.getD 1 ""),
      (layoutOf n).outputs.map (writtenAt plainTextHost raw)⟩ := by
  have hne : text ≠ "" := by
    rintro rfl
    have hall : ∀ n ∈ sendVersions, (splitPipes "").length ≠ (layoutOf n).count := by decide
    exact hall n hn (hraw ▸ hcount)
  have hupper : plainTextHost.toUpperCase (trim (raw.getD 0 "")) = "SEND" := by
    rw [plainTextHost.toUpperCase_ascii _ haction.1, haction.2]
  have hname : isActionName "SEND" = true := by decide
  have houtputs : ∀ maps : List OutputMap,
      (∀ m ∈ maps, isPosNum M (raw.getD m.amount "") = true) →
      maps.mapM (sendOutput plainTextHost M raw) =
        some (maps.map (writtenAt plainTextHost raw)) := by
    intro maps hmaps
    induction maps with
    | nil => rfl
    | cons m maps ih =>
      have hone : sendOutput plainTextHost M raw m = some (writtenAt plainTextHost raw m) := by
        rw [sendOutput, if_pos (hmaps m List.mem_cons_self)]
        rfl
      rw [List.mapM_cons, hone, ih fun m hm => hmaps m (List.mem_cons_of_mem _ hm)]
      rfl
  have hsplit : ((plainTextHost.normalizeNFC text).toList.splitOn '|').map String.ofList = raw :=
    hraw
  rw [parseActionString.eq_def]
  split
  · next he => exact absurd (Js.str.inj he) hne
  · next he =>
    cases he
    simp only [hsplit, hupper, hname, sendLayout_layoutOf hn hversion, hcount, houtputs _ hpos]
    simp
  · next hno => exact absurd rfl (hno text)

/-- A payment in its canonical form is read alike. -/
theorem parseActionString_canonical :
    DecodesAsSend plainHost "SEND|0|XCP|1|bc1q|n" false
      [⟨.str "XCP", .str "1", .str "bc1q", .str "n"⟩] := by
  have hraw : splitPipes "SEND|0|XCP|1|bc1q|n" = ["SEND", "0", "XCP", "1", "bc1q", "n"] := by
    decide
  have h := parseActionString_of_segments plainMath hraw (n := 0) (by decide) rfl
    (by decide) (by decide +kernel) (by decide +kernel)
  have hshift : versionShift (splitPipes "SEND|0|XCP|1|bc1q|n") = 0 := by decide +kernel
  refine (parseActionString_exact (H := plainWireHost) h (List.cons_ne_nil _ _)).2 ⟨?_, ?_, ?_, ?_⟩
  · change _ ≤ _
    decide
  · decide
  · rw [hshift, if_neg Nat.zero_ne_one]
    decide
  · intro layout hlayout m hm
    have hzero : sendLayout (trim ((splitPipes "SEND|0|XCP|1|bc1q|n").getD 1 "")) =
        some (layoutOf 0) := sendLayout_layoutOf (by decide) (by decide +kernel)
    obtain rfl := Option.some.inj (hlayout.symm.trans hzero)
    obtain rfl : m = ⟨2, 3, 4, 5⟩ := List.mem_singleton.1 hm
    rw [hshift, hraw]
    constructor <;> decide

/-- `parseActionString` takes a `SEND` in small letters, and the decoder takes none. -/
theorem parseActionString_not_decoded : ¬ ∀ (H : WireHost) (M : MathJs) (text : String)
    (parsed : ParsedAction), parseActionString H.toTextHost M (.str text) = some parsed →
    parsed.outputs ≠ [] → DecodesAsSend H.toHost text false parsed.outputs := by
  intro h
  have hraw : splitPipes "send|0|XCP|1|bc1q|n" = ["send", "0", "XCP", "1", "bc1q", "n"] := by
    decide
  have hparsed := parseActionString_of_segments plainMath hraw (n := 0) (by decide) rfl
    (by decide) (by decide +kernel) (by decide +kernel)
  obtain ⟨c, hparse, haction, -⟩ := h plainWireHost plainMath _ _ hparsed (List.cons_ne_nil _ _)
  obtain ⟨w, s, -, hreads, -, -, -, -, rfl⟩ := parse_command_reads hparse
  have hname : w.action = "send" := by
    rw [hreads.action, hraw]
    decide
  exact absurd (hname.symm.trans haction) (by decide)

end XChainSdk
