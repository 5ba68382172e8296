import XChainSdk.Js.Stringify
import XChainSdk.Lib.Tokens
import XChainSdk.Protocol.RepeatedGroups

/-!
# The format selector

From the fields of a caller to the version of the format and to the action string.

* `getLegs`, `legsFit`, `flattenSingleLeg`, `buildRepeatedParts` : the legs of a caller.
* `estimateLength`, `select` : the shortest format that has a slot for every populated field.
* `serialize` : the action string, `ACTION|VERSION|F1|F2|...` without its trailing empty values.
-/

namespace XChainSdk

open Js

/-- The fields of a caller, or of one leg: the own members of a plain object. -/
abbrev Fields := List (String × Js)

/-- The caller's list of legs; no slot of the wire. -/
def LEGS_FIELD : String := "LEGS"

/-- `PIN_ONLY_VERSIONS` -/
def pinOnlyVersions : List (String × List ℕ) := [("LIST", [2, 3, 4, 5])]

/-- The codes of an `SDKFormatError`. -/
inductive FormatErrorCode
  | UNKNOWN_ACTION
  | INVALID_VERSION
  | NO_MATCHING_FORMAT
  | UNSUPPORTED_REPEATED_FORMAT
  | INVALID_LEGS
  | INCONSISTENT_SHARED_FIELD
  | LEG_FIELD_NOT_IN_FORMAT
  | REPEATED_FORMAT_REQUIRES_LEGS
  | SINGLE_LEG_FORMAT
  /-- Not an `SDKFormatError`: the lookup of an unknown format throws, or `JSON.stringify` does. -/
  | TYPE_ERROR
  deriving DecidableEq

structure FormatError where
  code : FormatErrorCode
  message : String
  deriving DecidableEq

/-! ### The legs of a caller -/

/-- `value !== null && value !== undefined && value !== ''` -/
def isPopulated : Js → Bool
  | .undefined | .null => false
  | .str s => s != ""
  | _ => true

/-- `getPopulatedFields` -/
def getPopulatedFields (fields : Fields) : List String :=
  (fields.map Prod.fst).filter fun key => isPopulated (member fields key)

/-- One entry of the list of legs. -/
def legObject (leg : Js) (i : ℕ) : Except FormatError Fields :=
  match leg with
  | .obj leg => .ok leg
  | _ => .error ⟨.INVALID_LEGS,
      LEGS_FIELD ++ "[" ++ natText i ++ "] must be an object of field values"⟩

/-- `getLegs` -/
def getLegs (fields : Fields) : Except FormatError (Option (List Fields)) :=
  match member fields LEGS_FIELD with
  | .undefined | .null => .ok none
  | .arr [] => .error ⟨.INVALID_LEGS, LEGS_FIELD ++ " must contain at least one leg"⟩
  | .arr legs => do return some (← legs.zipIdx.mapM fun (leg, i) => legObject leg i)
  | _ => .error ⟨.INVALID_LEGS, LEGS_FIELD ++ " must be an array of per-leg objects"⟩

/-- `legFieldValue` -/
def legFieldValue (fieldName : String) (leg fields : Fields) (index : ℕ) :
    Except FormatError String :=
  let own := member leg fieldName
  match (if own.isNullish then member fields fieldName else own) with
  | .undefined | .null => .ok ""
  | .arr _ => .error ⟨.INVALID_LEGS, LEGS_FIELD ++ "[" ++ natText index ++ "]." ++ fieldName ++
      " must be a single value, not an array"⟩
  | value => .ok value.toText

/-- The text that starts every message about a version. -/
def versionLabel (action : String) (version : ℕ) : String := action ++ " v" ++ natText version

/-- One leg in the loop of `sharedValue`. -/
def sharedStep (action : String) (version : ℕ) (fieldName : String) (value : Option Js)
    (leg : Fields) : Except FormatError (Option Js) :=
  let legValue := member leg fieldName
  if !isPopulated legValue then .ok value
  else match value with
    | none => .ok (some legValue)
    | some value =>
      if legValue.toText ≠ value.toText then
        .error ⟨.INCONSISTENT_SHARED_FIELD, versionLabel action version ++ " carries " ++ fieldName ++
          " once for the whole action, but the legs disagree (" ++ value.toText ++ " vs " ++
          legValue.toText ++ "). Use a format version whose repeated group includes " ++ fieldName ++
          "."⟩
      else .ok (some value)

/-- `sharedValue` -/
def sharedValue (fieldName : String) (fields : Fields) (legs : List Fields) (action : String)
    (version : ℕ) : Except FormatError String := do
  let value := member fields fieldName
  let start := if isPopulated value then some value else none
  match ← legs.foldlM (sharedStep action version fieldName) start with
  | none => return ""
  | some (.arr _) =>
    throw ⟨.INVALID_LEGS, fieldName ++ " must be a single value, not an array"⟩
  | some value => return value.toText

/-- The populated values of a field over the legs, as texts. -/
def legTexts (field : String) (legs : List Fields) : List String :=
  ((legs.map fun leg => member leg field).filter isPopulated).map toText

/-- Every leg that names a field agrees on it. -/
def legsAgree (field : String) (legs : List Fields) : Bool :=
  match legTexts field legs with
  | [] => true
  | value :: values => values.all (· == value)

/-- `legsFit` -/
def legsFit (group : Option RepeatedGroup) (uniqueSlots : List String) (legs : List Fields) : Bool :=
  let legFields := legs.flatMap getPopulatedFields
  legFields.all (uniqueSlots.contains ·) &&
    match group with
    | none => legs.length == 1
    | some group => legFields.all fun field =>
        (group.groupSlots.map Slot.baseFieldName).contains field || legsAgree field legs

/-- `flattenSingleLeg`; the values of the leg win. -/
def flattenSingleLeg (fields leg : Fields) : Fields :=
  (leg ++ fields).filter fun entry => entry.1 != LEGS_FIELD

/-- `repeatedFieldNames` -/
def repeatedFieldNames (group : RepeatedGroup) : List String :=
  ((group.prefixSlots ++ group.groupSlots ++ group.suffixSlots).filter fun slot =>
    !slot.isAuto).map Slot.baseFieldName

/-- A key of a leg that has no slot is refused, also one whose value is empty. -/
def checkLegKeys (action : String) (version : ℕ) (group : RepeatedGroup) (leg : Fields) :
    Except FormatError Unit :=
  leg.forM fun (key, _) =>
    if (repeatedFieldNames group).contains key then .ok ()
    else .error ⟨.LEG_FIELD_NOT_IN_FORMAT,
      versionLabel action version ++ " has no slot for leg field " ++ key⟩

/-- One slot before or after the legs. -/
def sharedPart (action : String) (version : ℕ) (fields : Fields) (legs : List Fields) :
    Slot → Except FormatError String
  | .version => .ok (natText version)
  | slot => sharedValue slot.baseFieldName fields legs action version

/-- `buildRepeatedParts` -/
def buildRepeatedParts (action : String) (version : ℕ) (fields : Fields) (group : RepeatedGroup)
    (legs : List Fields) : Except FormatError (List String) := do
  legs.forM (checkLegKeys action version group)
  let lead ← group.prefixSlots.mapM (sharedPart action version fields legs)
  let values ← legs.zipIdx.mapM fun (leg, i) =>
    group.groupSlots.mapM fun slot => legFieldValue slot.baseFieldName leg fields i
  let trail ← group.suffixSlots.mapM (sharedPart action version fields legs)
  return action :: (lead ++ values.flatten ++ trail)

/-! ### Serialization -/

/-- The text of one value on the wire. -/
def valueText (value : Js) : String := if value.isNullish then "" else value.toText

/-- The segments of one slot of a flat format. -/
def slotParts (version : ℕ) (fields : Fields) : Slot → List String
  | .version => [natText version]
  | .rest name => (member fields name).elems.map valueText
  | .field name => [valueText (member fields name)]

/-- The slots and the group of a format of the table. -/
def formatOf (action : String) (version : ℕ) :
    Except FormatError (List Slot × Option RepeatedGroup) :=
  match getFormatFields action version with
  | none => .error ⟨.TYPE_ERROR, "Cannot read properties of undefined"⟩
  | some formatFields =>
    match getRepeatedGroup formatFields with
    | some group => .ok (formatFields, group)
    | none => .error ⟨.UNSUPPORTED_REPEATED_FORMAT, "Format " ++ versionLabel action version⟩

/-- `serializeRepeated` -/
def serializeRepeated (action : String) (version : ℕ) (fields : Fields) (group : RepeatedGroup)
    (legs : Option (List Fields)) : Except FormatError String :=
  match legs with
  | none =>
    let names := group.groupSlots.map Slot.baseFieldName
    .error ⟨.REPEATED_FORMAT_REQUIRES_LEGS, versionLabel action version ++
      " is a multi-leg format (" ++ "|".intercalate names ++
      " repeats) and cannot be built from a flat field map. Pass " ++ LEGS_FIELD ++ ": [\x7b " ++
      ", ".intercalate (names.map String.toLower) ++ " \x7d, ...] instead."⟩
  | some legs => do
    let parts ← buildRepeatedParts action version fields group legs
    return Tokens.join '|' (Tokens.trimTrailing 2 parts)

/-- The end of `serialize`, for a format that repeats nothing. -/
def serializeFlat (action : String) (version : ℕ) (formatFields : List Slot) (fields : Fields) :
    String :=
  Tokens.join '|' (Tokens.trimTrailing 2 (action :: formatFields.flatMap (slotParts version fields)))

/-- `serialize` -/
def serialize (action : String) (version : ℕ) (fields : Fields) : Except FormatError String := do
  let (formatFields, group) ← formatOf action version
  let legs ← getLegs fields
  match group with
  | some group => serializeRepeated action version fields group legs
  | none =>
    match legs with
    | none => return serializeFlat action version formatFields fields
    | some [leg] =>
      return serializeFlat action version formatFields (flattenSingleLeg fields leg)
    | some legs =>
      throw ⟨.SINGLE_LEG_FORMAT, versionLabel action version ++ " carries a single leg but " ++
        natText legs.length ++ " were provided"⟩

/-! ### Selection -/

/-- The length of one slot in `estimateLength`, with its pipe but for the last slot.  The pipe of a
variadic tail stands before it. -/
def slotLength (version : ℕ) (fields : Fields) (last : Bool) : Slot → ℕ
  | .rest name =>
    let items := (member fields name).elems
    (items.map fun item => utf16Length item.toText).sum + (items.length - 1)
  | slot => ((slotParts version fields slot).map utf16Length).sum + if last then 0 else 1

/-- The length of a flat format in `estimateLength`, before empty values are dropped. -/
def flatLength (action : String) (version : ℕ) (formatFields : List Slot) (fields : Fields) : ℕ :=
  utf16Length action + 1 + (formatFields.zipIdx.map fun (slot, i) =>
    slotLength version fields (i + 1 == formatFields.length) slot).sum

/-- `estimateLength` -/
def estimateLength (action : String) (version : ℕ) (fields : Fields) : Except FormatError ℕ := do
  let (formatFields, group) ← formatOf action version
  let legs ← getLegs fields
  match group, legs with
  | some group, some legs =>
    return utf16Length (Tokens.join '|' (← buildRepeatedParts action version fields group legs))
  | _, some [leg] => return flatLength action version formatFields (flattenSingleLeg fields leg)
  | _, _ => return flatLength action version formatFields fields

/-- What `select` returns. -/
structure Selected where
  version : ℕ
  formatFields : List Slot
  estimatedLength : ℕ
  deriving DecidableEq

/-- The fields that a format has slots for. -/
def userSlots (formatFields : List Slot) : List String :=
  (formatFields.filter fun slot => !slot.isAuto).map Slot.baseFieldName

/-- `versionCandidate` -/
def versionCandidate (action : String) (version : ℕ) (fields : Fields)
    (populatedFields : List String) (legs : Option (List Fields)) :
    Except FormatError (Option Selected) :=
  if ((pinOnlyVersions.lookup action).getD []).contains version then .ok none
  else do
    let (formatFields, group) ← formatOf action version
    if group.isSome && legs.isNone then return none
    if !populatedFields.all ((userSlots formatFields).contains ·) then return none
    if !(legs.all (legsFit group (userSlots formatFields))) then return none
    let estimatedLength ← estimateLength action version fields
    return some ⟨version, formatFields, estimatedLength⟩

/-- The order in which candidates are sorted. -/
def shorterFirst (a b : Selected) : Bool :=
  if a.estimatedLength ≠ b.estimatedLength then decide (a.estimatedLength ≤ b.estimatedLength)
  else decide (a.version ≤ b.version)

/-- `noMatchingFormatError` -/
def noMatchingFormatError (action : String) (populatedFields : List String)
    (legs : Option (List Fields)) : FormatError where
  code := .NO_MATCHING_FORMAT
  message := "No format version for " ++ action ++ " can represent the provided fields" ++
    (match legs with
      | none => ""
      | some legs => " with " ++ natText legs.length ++ " leg" ++ (if legs.length = 1 then "" else "s") ++
        " (a per-leg field that only exists as a shared slot must be identical across legs)") ++
    ": " ++ ", ".intercalate (populatedFields ++ if legs.isSome then [LEGS_FIELD] else [])

/-- `canonicalVersion` -/
def canonicalVersion : Js → Option JsNum
  | .num (.fin q) => if q.den = 1 ∧ 0 ≤ q then some (.fin q) else none
  | .str s =>
    if s.toList ≠ [] ∧ s.toList.all Char.isDigit then some (stringToNumber s) else none
  | _ => none

/-- `typeof x` -/
def typeOf : Js → String
  | .undefined => "undefined"
  | .null | .arr _ | .obj _ => "object"
  | .bool _ => "boolean"
  | .num _ => "number"
  | .bigint _ => "bigint"
  | .str _ => "string"

/-- `selectPinned` -/
def selectPinned (action : String) (versions : List (ℕ × List Slot)) (fields : Fields)
    (explicitVersion : Js) : Except FormatError Selected := do
  let some v := canonicalVersion explicitVersion |
    match explicitVersion.jsonText with
    | none => throw ⟨.TYPE_ERROR, "Do not know how to serialize a BigInt"⟩
    | some text => throw ⟨.INVALID_VERSION,
        "VERSION must be a non-negative integer or a decimal-integer string; got " ++
          typeOf explicitVersion ++ " " ++ text⟩
  let some (version, formatFields) := v.safeNat?.bind fun version =>
      (versions.lookup version).map (version, ·) |
    throw ⟨.INVALID_VERSION, "Version " ++ numberToString v ++ " is not defined for " ++ action⟩
  let dropped := (getPopulatedFields fields).filter fun field =>
    field != LEGS_FIELD && !(userSlots formatFields).contains field
  if dropped ≠ [] then
    throw ⟨.NO_MATCHING_FORMAT, versionLabel action version ++ " has no slot for " ++
      ", ".intercalate dropped ++ "; serializing it would silently discard " ++
      (if dropped.length = 1 then "that field" else "those fields")⟩
  return ⟨version, formatFields, ← estimateLength action version fields⟩

/-- `select` -/
def select (action : String) (fields : Fields) (explicitVersion : Js) :
    Except FormatError Selected :=
  match formats.lookup action with
  | none => .error ⟨.UNKNOWN_ACTION, "Unknown ACTION type: " ++ action⟩
  | some versions =>
    if !explicitVersion.isNullish then selectPinned action versions fields explicitVersion
    else do
      let legs ← getLegs fields
      let populatedFields := (getPopulatedFields fields).filter (· != LEGS_FIELD)
      let candidates ← versions.mapM fun (version, _) =>
        versionCandidate action version fields populatedFields legs
      match (candidates.reduceOption.mergeSort shorterFirst).head? with
      | none => throw (noMatchingFormatError action populatedFields legs)
      | some selected => return selected

end XChainSdk
