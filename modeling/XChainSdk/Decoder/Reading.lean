import XChainSdk.Decoder.Parse
import XChainSdk.Lib.Checks

/-!
# What the decoder reads

* `HeadReads` : the action, the format and the values of an accepted string.
* `parseFields_eq` : what is read of the values, by the shape of the format.
-/

namespace XChainSdk

/-- The values of a string as the indexer reads them: trimmed, with the implied version. -/
def readValues (action : String) (segments : List String) : List String :=
  injectVersion action (trimSegments (segments.drop 1))

theorem getD_trimSegments (vs : List String) (i : ℕ) :
    (trimSegments vs).getD i "" = trim (vs.getD i "") := by
  rw [trimSegments, List.getD_eq_getElem?_getD, List.getD_eq_getElem?_getD, List.getElem?_map]
  cases vs[i]? with
  | none => rfl
  | some v => rfl

/-- What an accepted string says before its values. -/
structure HeadReads (text : String) (w : WireHead) : Prop where
  segments : w.segments = splitPipes text
  rawAction : w.rawAction = (splitPipes text).headD ""
  action : w.action = expandAlias ((splitPipes text).headD "")
  fieldNames : getFormatFields w.action w.version = some w.fieldNames
  version : formatVersion (readValues w.action w.segments).head? = some (.fin w.version)
  valueSegs : w.valueSegs = natText w.version :: (readValues w.action w.segments).drop 1
  legacy : w.legacy = (legacyFormatActions.contains w.action &&
    isLegacyActionFormat (trimSegments (w.segments.drop 1)))

theorem readSegments_of_version {action : String} {segments : List String} {x : JsNum}
    (h : (readSegments action segments false).version = some x) :
    formatVersion (readValues action segments).head? = some x ∧
      (readSegments action segments false).valueSegs =
        numberToString x :: (readValues action segments).drop 1 ∧
      (readSegments action segments false).legacy = (legacyFormatActions.contains action &&
        isLegacyActionFormat (trimSegments (segments.drop 1))) := by
  simp only [readSegments, Bool.false_eq_true, if_false] at h ⊢
  cases hversion : (readVersion action (trimSegments (segments.drop 1))).version with
  | none =>
    rw [hversion] at h
    dsimp only at h
    rw [hversion] at h
    cases h
  | some y =>
    rw [hversion] at h
    cases h
    exact ⟨hversion, rfl, rfl⟩

theorem parseHead_reads {text : String} {w : WireHead} (h : parseHead text false = .ok w) :
    HeadReads text w := by
  simp only [parseHead] at h
  split at h
  · next versions hversions =>
    split at h
    · next version hversion =>
      split at h
      · next fieldNames hfields =>
        cases h
        obtain ⟨x, hx, hsafe⟩ := Option.bind_eq_some_iff.1 hversion
        obtain ⟨rfl, hle⟩ := JsNum.safeNat?_eq_some hsafe
        have hread := readSegments_of_version hx
        refine ⟨rfl, rfl, rfl, ?_, hread.1, ?_, ?_⟩
        · rw [getFormatFields, hversions, Option.bind_some, hfields]
        · dsimp only
          have htext : numberToString (.fin version) = natText version :=
            numberToString_natCast (by omega)
          rw [hread.2.1, htext]
        · exact hread.2.2
      · cases h
    · cases h
  · cases h

/-! ### Values by the shape of the format -/

/-- What `mapFields` finds in the values of a format. -/
def Shape.mapped : Shape → List String → MappedFields
  | flat names, vs =>
    { params := singleParams (fixed names) vs 0
      ignored := if names.length + 1 < vs.length then some (vs.drop (names.length + 1)) else none }
  | rested names tail, vs =>
    { params := singleParams (fixed names) vs 0 ++ [(tail, .many (vs.drop (names.length + 1)))]
      rest := some (vs.drop (names.length + 1)) }
  | legged lead group trail, vs =>
    mapRepeatedFields ⟨fixed lead, group.map .field, trail.map .field⟩ vs

/-- The values of a format, without those past its last slot. -/
def Shape.kept : Shape → List String → List String
  | flat names, vs => vs.take (names.length + 1)
  | _, vs => vs

theorem length_fixed (names : List String) : (fixed names).length = names.length + 1 := by
  simp [fixed]

theorem findIdx?_fixed (names : List String) : (fixed names).findIdx? Slot.isRestField = none := by
  simp [fixed, Slot.isRestField, List.findIdx?_eq_none_iff]

theorem findIdx?_variadic (names : List String) (tail : String) :
    (variadic names tail).findIdx? Slot.isRestField = some (names.length + 1) := by
  rw [variadic, List.findIdx?_append, findIdx?_fixed, length_fixed]
  simp [Slot.isRestField, List.findIdx?_cons]

theorem slotValues_fields (names : List String) (vs : List String) (start : ℕ) :
    slotValues (names.map .field) vs start =
      (names.zipIdx start).map fun (name, i) => (name, vs.getD i "") := by
  refine List.ext_getElem (by simp [slotValues]) fun i h h' => ?_
  simp [slotValues, Slot.baseFieldName]

theorem singleParams_fields {names : List String} (h : "VERSION" ∉ names) (vs : List String)
    (start : ℕ) : singleParams (names.map .field) vs start =
      (names.zipIdx start).map fun (name, i) => (name, .one (vs.getD i "")) := by
  rw [singleParams, slotValues_fields, List.filter_eq_self.2, List.map_map]
  · rfl
  · intro e he
    obtain ⟨⟨name, i⟩, hmem, rfl⟩ := List.mem_map.1 he
    have hname := List.fst_mem_of_mem_zipIdx hmem
    simp only [bne_iff_ne, ne_eq]
    rintro rfl
    exact h hname

/-- `VERSION` is no parameter; the names follow it. -/
theorem singleParams_fixed {names : List String} (h : "VERSION" ∉ names) (vs : List String) :
    singleParams (fixed names) vs 0 =
      (names.zipIdx 1).map fun (name, i) => (name, .one (vs.getD i "")) := by
  rw [← singleParams_fields h]
  refine congrArg (List.map _) ?_
  have hslots : slotValues (fixed names) vs 0 =
      ("VERSION", vs.getD 0 "") :: slotValues (names.map .field) vs 1 := by
    rw [slotValues, fixed, List.zipIdx_cons, List.map_cons]
    refine congrArg (List.cons _) (List.ext_getElem (by simp [slotValues]) fun i h h' => ?_)
    simp [slotValues]
  rw [hslots, List.filter_cons_of_neg (by simp)]

theorem mapFields_shape (s : Shape) (vs : List String) :
    mapFields s.slots vs s.group? false = .ok (s.mapped vs) := by
  cases s with
  | flat names =>
    simp only [mapFields, Shape.slots, findIdx?_fixed, Shape.group?, length_fixed, Shape.mapped,
      Bool.false_eq_true, if_false]
    split_ifs <;> rfl
  | rested names tail =>
    have hslots : (Shape.rested names tail).slots = variadic names tail := rfl
    have hlen : (variadic names tail).length = names.length + 1 + 1 := by simp [variadic, fixed]
    have hlast : (variadic names tail)[names.length + 1]? = some (.rest tail) := by
      simp [variadic, fixed]
    have htake : (variadic names tail).take (names.length + 1) = fixed names := by
      rw [variadic, ← length_fixed, List.take_left]
    rw [hslots]
    simp only [mapFields, findIdx?_variadic]
    rw [if_neg fun h => h hlen.symm, hlast, htake]
    rfl
  | legged lead group trail =>
    simp only [mapFields, Shape.slots, findIdx?_fixed]
    rfl

/-! ### The number of legs -/

/-- The loop ends at the smallest count that holds the values. -/
theorem countLegs_spec {per base len fuel n : ℕ} (hn : 1 ≤ n)
    (hprev : n = 1 ∨ base + (n - 1) * per < len) (hfuel : len ≤ base + (n + fuel) * per) :
    1 ≤ countLegs per base len fuel n ∧ len ≤ base + countLegs per base len fuel n * per ∧
      (countLegs per base len fuel n = 1 ∨
        base + (countLegs per base len fuel n - 1) * per < len) := by
  induction fuel generalizing n with
  | zero => exact ⟨hn, hfuel, hprev⟩
  | succ fuel ih =>
    rw [countLegs]
    split_ifs with hmore
    · refine ih (Nat.le_add_left 1 n) (.inr ?_) ?_
      · rw [Nat.add_sub_cancel]
        exact hmore
      · rw [Nat.add_right_comm, Nat.add_assoc]
        exact hfuel
    · exact ⟨hn, Nat.le_of_not_lt hmore, hprev⟩

theorem legCountOf_spec {per base len : ℕ} (hper : 0 < per) :
    1 ≤ legCountOf per base len ∧ len ≤ base + legCountOf per base len * per ∧
      (legCountOf per base len = 1 ∨ base + (legCountOf per base len - 1) * per < len) := by
  refine countLegs_spec le_rfl (.inl rfl) ?_
  have hmul : len ≤ (1 + len) * per := calc
    len ≤ 1 + len := Nat.le_add_left len 1
    _ ≤ (1 + len) * per := Nat.le_mul_of_pos_right _ hper
  exact hmul.trans (Nat.le_add_left _ _)

/-- The values that stand in the canonical string. -/
theorem kept_shape (s : Shape) (vs : List String) :
    (match (s.mapped vs).ignored with
      | some ignored => vs.take (vs.length - ignored.length)
      | none => vs) = s.kept vs := by
  cases s with
  | flat names =>
    simp only [Shape.mapped, Shape.kept]
    split_ifs with hlong
    · dsimp only
      rw [List.length_drop]
      congr 1
      omega
    · exact (List.take_of_length_le (Nat.le_of_not_lt hlong)).symm
  | rested names tail => rfl
  | legged lead group trail => rfl

/-- The command that the decoder makes of the values of a format. -/
def commandOf (w : WireHead) (s : Shape) : ParsedCommand where
  action := w.action
  rawAction := if w.rawAction = w.action then none else some w.rawAction
  version := w.version
  params := (s.mapped w.valueSegs).params
  rest := (s.mapped w.valueSegs).rest
  legs := (s.mapped w.valueSegs).legs
  ignoredSegments := (s.mapped w.valueSegs).ignored
  legacyVersion := w.legacy
  actionString := canonicalize w.action (s.kept w.valueSegs)

/-- Fields never fail once the action and its version are known. -/
theorem parseFields_eq {w : WireHead} {s : Shape} (hslots : w.fieldNames = s.slots)
    (hgroup : getRepeatedGroup w.fieldNames = some s.group?) :
    parseFields w false = .ok (commandOf w s) := by
  rw [hslots] at hgroup
  rw [commandOf, ← kept_shape]
  simp only [parseFields, hslots, hgroup, mapFields_shape]
  rfl

/-- An accepted string has passed the gate on its size. -/
theorem parseTopLevel_of_parse {text : String} {strictWire legacy : Bool} {r : DecodedAction}
    (h : parse text strictWire legacy = .ok r) : parseTopLevel text strictWire = .ok r := by
  simp only [parse] at h
  split_ifs at h
  exact h

/-- What the decoder returns for a string that is no batch. -/
theorem parse_command_reads {text : String} {legacy : Bool} {c : ParsedCommand}
    (h : parse text false legacy = .ok (.command c)) :
    ∃ (w : WireHead) (s : Shape), parseHead text false = .ok w ∧ HeadReads text w ∧
      w.action ≠ "BATCH" ∧ w.fieldNames = s.slots ∧
      getRepeatedGroup w.fieldNames = some s.group? ∧ s.WellFormed ∧ c = commandOf w s := by
  have htop := parseTopLevel_of_parse h
  rw [parseTopLevel, Checks.bind_eq_ok] at htop
  obtain ⟨w, hw, hrest⟩ := htop
  have hreads := parseHead_reads hw
  split_ifs at hrest with hbatch
  · -- a batch gives no single command
    simp only [parseBatch] at hrest
    split_ifs at hrest <;> cases hrest
  · obtain ⟨s, hslots, hgroup, hwf⟩ := getFormatFields_shape hreads.fieldNames
    rw [parseFields_eq hslots hgroup] at hrest
    cases hrest
    exact ⟨w, s, hw, hreads, hbatch, hslots, hgroup, hwf, rfl⟩

end XChainSdk
