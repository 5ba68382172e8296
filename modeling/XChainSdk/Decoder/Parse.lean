import XChainSdk.Lib.Tokens
import XChainSdk.Protocol.CarrierLimits
import XChainSdk.Protocol.RepeatedGroups
import XChainSdk.Protocol.WireVersion

/-!
# The decoder of action strings

`ACTION|VERSION|F1|F2|...` in, the parsed action out, and a typed failure for anything else.

* `mapFields` : the values under the names of the format, legs and variadic tails included.
* `canonicalize` : the string of an action without its trailing empty values.
* `parse` : the decoder; a batch is parsed command by command.
-/

namespace XChainSdk

/-- Why a string is refused. -/
inductive ParseCode
  | EMPTY
  | TOO_LONG
  | UNKNOWN_ACTION
  | UNKNOWN_VERSION
  | UNSUPPORTED_REPEATED_FORMAT
  | FIELD_COUNT_MISMATCH
  | MALFORMED_REST
  | NESTED_BATCH_FORBIDDEN
  | EMPTY_BATCH
  deriving DecidableEq

structure ParseFailure where
  code : ParseCode
  detail : Option String := none
  deriving DecidableEq

/-- A parameter: the value of a slot, or the values of a slot that stands for several. -/
inductive Param where
  | one (value : String)
  | many (values : List String)
  deriving DecidableEq

/-- What `mapFields` returns. -/
structure MappedFields where
  params : List (String × Param)
  rest : Option (List String) := none
  legs : Option (List (List (String × String))) := none
  ignored : Option (List String) := none
  deriving DecidableEq

/-! ### Values under names -/

/-- The loop that counts the legs of `mapRepeatedFields`; a round adds a leg. -/
def countLegs (per base len : ℕ) : ℕ → ℕ → ℕ
  | 0, legCount => legCount
  | fuel + 1, legCount =>
    if base + legCount * per < len then countLegs per base len fuel (legCount + 1) else legCount

/-- The smallest number of legs whose layout holds so many values. -/
def legCountOf (per base len : ℕ) : ℕ := countLegs per base len len 1

/-- The values of consecutive slots from position `at`; a value past the last one is empty. -/
def slotValues (slots : List Slot) (valueSegs : List String) (start : ℕ) : List (String × String) :=
  slots.zipIdx.map fun (slot, j) => (slot.baseFieldName, valueSegs.getD (start + j) "")

/-- The parameters of slots that stand once; `VERSION` is none. -/
def singleParams (slots : List Slot) (valueSegs : List String) (start : ℕ) :
    List (String × Param) :=
  ((slotValues slots valueSegs start).filter fun e => e.1 != "VERSION").map fun (name, value) =>
    (name, .one value)

/-- `mapRepeatedFields` -/
def mapRepeatedFields (group : RepeatedGroup) (valueSegs : List String) : MappedFields :=
  let per := group.groupSlots.length
  let start := group.prefixSlots.length
  let legCount := legCountOf per (start + group.suffixSlots.length) valueSegs.length
  let legs := (List.range legCount).map fun i =>
    slotValues group.groupSlots valueSegs (start + i * per)
  { params := singleParams group.prefixSlots valueSegs 0 ++
      group.groupSlots.zipIdx.map (fun (slot, j) => (slot.baseFieldName,
        .many ((List.range legCount).map fun i => valueSegs.getD (start + i * per + j) ""))) ++
      singleParams group.suffixSlots valueSegs (start + legCount * per)
    legs := some legs }

/-- `mapFields`.  `getRepeatedGroup` has refused a format in which a name stands for two slots outside
of a group. -/
def mapFields (fieldNames : List Slot) (valueSegs : List String) (group : Option RepeatedGroup)
    (strictWire : Bool) : Except ParseFailure MappedFields :=
  match fieldNames.findIdx? Slot.isRestField with
  | none =>
    match group with
    | some group => .ok (mapRepeatedFields group valueSegs)
    | none =>
      if fieldNames.length < valueSegs.length then
        if strictWire then
          .error ⟨.FIELD_COUNT_MISMATCH, some (natText valueSegs.length ++ " values vs " ++
            natText fieldNames.length ++ " fields")⟩
        else
          .ok { params := singleParams fieldNames valueSegs 0
                ignored := some (valueSegs.drop fieldNames.length) }
      else .ok { params := singleParams fieldNames valueSegs 0 }
  | some restIndex =>
    let restName := (fieldNames[restIndex]?.map Slot.baseFieldName).getD ""
    if restIndex + 1 ≠ fieldNames.length then .error ⟨.MALFORMED_REST, some ("..." ++ restName)⟩
    else
      let rest := valueSegs.drop restIndex
      .ok { params := singleParams (fieldNames.take restIndex) valueSegs 0 ++ [(restName, .many rest)]
            rest := some rest }

/-- `canonicalize` -/
def canonicalize (action : String) (valueSegs : List String) : String :=
  Tokens.join '|' (action :: Tokens.trimTrailing 1 valueSegs)

/-! ### The parser -/

/-- An action that is no batch. -/
structure ParsedCommand where
  action : String
  rawAction : Option String
  version : ℕ
  params : List (String × Param)
  rest : Option (List String)
  legs : Option (List (List (String × String)))
  ignoredSegments : Option (List String)
  legacyVersion : Bool
  actionString : String
  deriving DecidableEq

/-- What `parse` returns. -/
inductive DecodedAction where
  | command (c : ParsedCommand)
  | batch (version : ℕ) (body : String) (commands : List (Except ParseFailure ParsedCommand))
      (actionString : String)

/-- What the start of `parseTopLevel` finds: the action, the format and the values. -/
structure WireHead where
  rawAction : String
  action : String
  version : ℕ
  fieldNames : List Slot
  segments : List String
  valueSegs : List String
  legacy : Bool

/-- The start of `parseTopLevel`. -/
def parseHead (text : String) (strictWire : Bool) : Except ParseFailure WireHead := do
  let segments := splitPipes text
  let rawAction := segments.headD ""
  let action := expandAlias rawAction
  let some versions := formats.lookup action | throw ⟨.UNKNOWN_ACTION, some rawAction⟩
  let read := readSegments action segments strictWire
  let unknown : ParseFailure :=
    ⟨.UNKNOWN_VERSION, some (action ++ " v" ++ (segments[1]?).getD "undefined")⟩
  let some version := read.version.bind JsNum.safeNat? | throw unknown
  let some fieldNames := versions.lookup version | throw unknown
  return { rawAction, action, version, fieldNames, segments, valueSegs := read.valueSegs,
           legacy := read.legacy }

/-- The end of `parseTopLevel`, for an action that is no batch. -/
def parseFields (h : WireHead) (strictWire : Bool) : Except ParseFailure ParsedCommand := do
  let some group := getRepeatedGroup h.fieldNames | throw ⟨.UNSUPPORTED_REPEATED_FORMAT, none⟩
  let mapped ← mapFields h.fieldNames h.valueSegs group strictWire
  let kept := match mapped.ignored with
    | some ignored => h.valueSegs.take (h.valueSegs.length - ignored.length)
    | none => h.valueSegs
  return { action := h.action
           rawAction := if h.rawAction = h.action then none else some h.rawAction
           version := h.version
           params := mapped.params
           rest := mapped.rest
           legs := mapped.legs
           ignoredSegments := mapped.ignored
           legacyVersion := h.legacy
           actionString := canonicalize h.action kept }

/-- `parseTopLevel` of a command of a batch. -/
def parseEntry (entry : String) : Except ParseFailure ParsedCommand :=
  if entry = "" then .error ⟨.EMPTY, some "empty BATCH command"⟩
  else do
    let h ← parseHead entry false
    if h.action = "BATCH" then throw ⟨.NESTED_BATCH_FORBIDDEN, none⟩
    parseFields h false

/-- The entry is a batch of its own. -/
def isNested : Except ParseFailure ParsedCommand → Bool
  | .error e => e.code == .NESTED_BATCH_FORBIDDEN
  | .ok _ => false

/-- `tail.split(';')` -/
def splitSemicolons (tail : String) : List String :=
  (tail.toList.splitOn ';').map String.ofList

/-- `parseBatch` -/
def parseBatch (h : WireHead) : Except ParseFailure DecodedAction :=
  let tail := Tokens.join '|' (h.segments.drop 2)
  if h.segments.length ≤ 2 then .ok (.batch h.version "" [] (canonicalize "BATCH" h.valueSegs))
  else if tail = "" then .error ⟨.EMPTY_BATCH, none⟩
  else
    let commands := (splitSemicolons tail).map parseEntry
    if commands.any isNested then .error ⟨.NESTED_BATCH_FORBIDDEN, none⟩
    else .ok (.batch h.version tail commands
      (canonicalize "BATCH" (natText h.version :: h.segments.drop 2)))

/-- `parseTopLevel` of a whole string. -/
def parseTopLevel (text : String) (strictWire : Bool) : Except ParseFailure DecodedAction := do
  let h ← parseHead text strictWire
  if h.action = "BATCH" then parseBatch h
  else return .command (← parseFields h strictWire)

/-- `parse` of a string; `legacy` says whether `opts.carrier` is a legacy one. -/
def parse (text : String) (strictWire legacy : Bool) : Except ParseFailure DecodedAction :=
  let rawLength := text.utf8ByteSize
  let ceiling := carrierCeiling rawLength legacy
  if text = "" then .error ⟨.EMPTY, none⟩
  else if strictWire ∧ MAX_ACTION_DATA_LENGTH < rawLength then
    .error ⟨.TOO_LONG, some (natText rawLength ++ " bytes > " ++ natText MAX_ACTION_DATA_LENGTH)⟩
  else if ¬strictWire ∧ ceiling.limit < ceiling.size then
    .error ⟨.TOO_LONG, some (natText rawLength ++ " bytes measure " ++ natText ceiling.size ++ " > " ++
      natText ceiling.limit)⟩
  else parseTopLevel text strictWire

end XChainSdk
