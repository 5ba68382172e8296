import XChainSdk.Js.NumberFormat
import XChainSdk.Protocol.CarrierLimits
import XChainSdk.Protocol.FormatSelector

/-!
# Contracts that are deployed in chunks

A contract whose source does not fit one `DEPLOY` is carried by several, one slice of its base64 each.

* `base64`, `splitCode` : the text of the source on the wire, and its slices.
* `deployOverhead`, `fitsSingleDeploy`, `planDeploy` : what a single `DEPLOY` would weigh, and the plan.
* `composeDeploy` : the string that the composer makes of the same options.
-/

namespace XChainSdk

open Js Hash

/-! ### The source on the wire -/

/-- The alphabet of base64. -/
def base64Alphabet : List Char :=
  "ABCDEFGHIJKLMNOPQRSTUVWXYZabcdefghijklmnopqrstuvwxyz0123456789+/".toList

/-- The character of six bits. -/
def base64Char (n : ℕ) : Char := base64Alphabet.getD n '='

/-- `buffer.toString('base64')`: three bytes are four characters, and the last group is padded. -/
def base64Chars : Bytes → List Char
  | a :: b :: c :: rest =>
    [base64Char (a.toNat / 4), base64Char (a.toNat % 4 * 16 + b.toNat / 16),
      base64Char (b.toNat % 16 * 4 + c.toNat / 64), base64Char (c.toNat % 64)] ++ base64Chars rest
  | [a, b] =>
    [base64Char (a.toNat / 4), base64Char (a.toNat % 4 * 16 + b.toNat / 16),
      base64Char (b.toNat % 16 * 4), '=']
  | [a] => [base64Char (a.toNat / 4), base64Char (a.toNat % 4 * 16), '=', '=']
  | [] => []

/-- `Buffer.from(String(code), 'utf8').toString('base64')` -/
def base64 (code : String) : String := String.ofList (base64Chars (utf8 code))

def MAX_DEPLOYCHUNK_PART_BYTES : ℕ := 7800

def MAX_DEPLOY_CHUNKS : ℕ := 16

def MAX_CODE_SIZE : ℕ := 65536

def OP_RETURN_PUSH_OVERHEAD : ℕ := 3

/-- The slices of a text, each of `size` characters but the last. -/
def slices (size : ℕ) (text : List Char) : List (List Char) :=
  (List.range ((text.length + size - 1) / size)).map fun i => (text.drop (i * size)).take size

/-- `splitCode`; an empty source has one empty slice. -/
def splitCode (code : String) : List String :=
  let parts := (slices MAX_DEPLOYCHUNK_PART_BYTES (base64 code).toList).map String.ofList
  if parts.isEmpty then [""] else parts

/-! ### The plan -/

/-- The options of a deploy that weigh on the wire. -/
structure DeployOptions where
  gasLimit : Js := .undefined
  constructorParams : Js := .undefined
  cooldownBlocks : Js := .undefined
  slashDestination : Js := .undefined

/-- `Array.isArray(x) ? x : [x]` -/
def asArray : Js → List Js
  | .arr xs => xs
  | x => [x]

/-- `ctorString` -/
def ctorString (constructorParams : Js) : String :=
  if constructorParams.isNullish then ""
  else Tokens.join '|' ((asArray constructorParams).map toText)

/-- `tailField` -/
def tailField (value : Js) : String := if value.isNullish then "" else value.toText

/-- `deployOverhead` -/
def deployOverhead (opts : DeployOptions) : String :=
  let gas := (opts.gasLimit.or (.num (.fin 0))).toText
  let ctor := ctorString opts.constructorParams
  let cooldown := tailField opts.cooldownBlocks
  let slashDst := tailField opts.slashDestination
  if cooldown = "" ∧ slashDst = "" then
    "DEPLOY|0||" ++ gas ++ if ctor = "" then "" else "|" ++ ctor
  else
    "DEPLOY|1||" ++ gas ++ "|" ++ ctor ++ "|" ++ cooldown ++
      if slashDst = "" then "" else "|" ++ slashDst

/-- `fitsSingleDeploy` -/
def fitsSingleDeploy (code : String) (opts : DeployOptions) : Bool :=
  decide ((base64 code).utf8ByteSize +
    ((deployOverhead opts).utf8ByteSize + OP_RETURN_PUSH_OVERHEAD) ≤ MAX_ACTION_DATA_LENGTH)

/-- `{ codeHash, single, parts, totalChunks }`; `parts` is `null` in a plan of one transaction. -/
structure DeployPlan where
  codeHash : String
  single : Bool
  parts : Option (List String)
  totalChunks : ℕ
  deriving DecidableEq

/-- `codeHashOf` -/
def codeHashOf (H : Host) (code : String) : String := toHex (H.sha256 (utf8 code)).bytes

/-- `planDeploy` -/
def planDeploy (H : Host) (code : String) (opts : DeployOptions) : Except String DeployPlan :=
  let codeBytes := code.utf8ByteSize
  let parts := splitCode code
  if MAX_CODE_SIZE < codeBytes then
    .error ("Contract code exceeds " ++ natText MAX_CODE_SIZE ++ " byte limit (" ++
      natText codeBytes ++ " bytes)")
  else if fitsSingleDeploy code opts then .ok ⟨codeHashOf H code, true, none, 0⟩
  else if MAX_DEPLOY_CHUNKS < parts.length then
    .error ("Contract source needs " ++ natText parts.length ++ " chunks, exceeds MAX_DEPLOY_CHUNKS (" ++
      natText MAX_DEPLOY_CHUNKS ++ ")")
  else .ok ⟨codeHashOf H code, false, some parts, parts.length⟩

/-- The action that carries one slice, with the fields of `executeDeploy`. -/
def chunkAction (codeHash : String) (index totalChunks : ℕ) (part : String) :
    Except FormatError String :=
  serialize "DEPLOY" 4 [("CODE_HASH", .str codeHash), ("CHUNK_INDEX", .num (.fin index)),
    ("TOTAL_CHUNKS", .num (.fin totalChunks)), ("CODE_PART", .str part)]

/-! ### The composer -/

/-- Why the composer refuses a deploy. -/
inductive ComposeError
  /-- A number that a double has rounded already. -/
  | rounded (name : String)
  /-- `mathjs.bignumber` throws. -/
  | notNumeric (name : String)
  | format (e : FormatError)
  /-- A stakeable format carries its parameters in one field. -/
  | constructorParams (version count : ℕ)
  deriving DecidableEq

/-- `setNumberFormats` of one field. -/
def numberFormat (M : MathJs) (name : String) (value : Js) : Except ComposeError Js :=
  if !isPopulated value || !isNumeric value then .ok value
  else if isRounded value then .error (.rounded name)
  else match M.bignumber (trim value.toText) with
    | none => .error (.notNumeric name)
    | some x => .ok (.str x.toFixedText)

/-- The parameters of the constructor as the composer hands them on. -/
def ctorField : Js → Js
  | .undefined => .undefined
  | x => .arr ((asArray x).map fun param => .str param.toText)

/-- The fields of a deploy before a format is selected. -/
def deployFields (M : MathJs) (code : String) (opts : DeployOptions) :
    Except ComposeError Fields := do
  let cooldown ← numberFormat M "COOLDOWN_BLOCKS" opts.cooldownBlocks
  let gas ← numberFormat M "GAS_LIMIT" opts.gasLimit
  return [("GAS_LIMIT", gas), ("CONSTRUCTOR_PARAMS", ctorField opts.constructorParams),
    ("COOLDOWN_BLOCKS", cooldown), ("SLASH_DESTINATION", opts.slashDestination),
    ("CODE_ENCODING", .str (base64 code))]

/-- `composeActionString` of `{ action: 'DEPLOY', params: { code, ...opts } }`; the validator, which
refuses or lets pass and changes nothing, is left out. -/
def composeDeploy (M : MathJs) (code : String) (opts : DeployOptions) :
    Except ComposeError String := do
  let fields ← deployFields M code opts
  let selected ← (select "DEPLOY" fields .undefined).mapError .format
  let count := (member fields "CONSTRUCTOR_PARAMS").elems.length
  if 1 < count ∧ selected.formatFields.contains (.field "CONSTRUCTOR_PARAMS") then
    throw (.constructorParams selected.version count)
  (serialize "DEPLOY" selected.version fields).mapError .format

end XChainSdk
