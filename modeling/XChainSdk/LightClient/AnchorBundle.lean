import XChainSdk.Consensus.Gates
import XChainSdk.Lib.Cursor
import XChainSdk.Lib.Tokens
import XChainSdk.Merkle.BlockContent

/-!
# Anchor bundles

The wire of a checkpoint bundle is read with a cursor: a header, sections of a width that their
signature counts give, for the fold version an archive, and a tail of attestations.

* `AnchorSection`, `AnchorBundle`, `FoldBundle` : what the two parsers return.
* `parseAnchorV3Section`, `parseAnchorV3Tail`, `parseAnchorV3` : the fold version, read to its end.
* `parseAnchorV0` : the version without an archive; its reader does not ask for the end.
-/

namespace XChainSdk

open Js Cursor

/-! ### Bundles -/

/-- A signature of a section, or an attestation of the publisher. -/
structure AnchorSignature where
  pubkey : String
  sig : String
deriving DecidableEq

/-- `fold_archive`: the part of an archive that its wrapper section signs. -/
structure FoldArchive where
  matchBatchSeq : JsNum
  matchCount : JsNum
  batchCrc32 : String
  totalChunks : JsNum
deriving DecidableEq

/-- A checkpoint section. -/
structure AnchorSection where
  chain : String
  network : String
  blockIndex : JsNum
  blockHash : String
  ledgerHash : String
  actionsHash : String
  contractHash : String
  checkpointSeq : JsNum
  snapshotBlock : JsNum
  stateRoot : String
  stateRootVersion : JsNum
  blockMerkleRoot : String
  blockMerkleVersion : JsNum
  validatorSignatures : List AnchorSignature
  foldArchive : Option FoldArchive := none
deriving DecidableEq

/-- The archive that is folded into a bundle. -/
structure AnchorArchive extends FoldArchive where
  wrapperSectionIndex : ℕ
  archiveB64 : String
deriving DecidableEq

/-- What `parseAnchorV0` returns. -/
structure AnchorBundle where
  version : ℕ
  network : String
  snapshotBlock : JsNum
  sectionCount : JsNum
  sections : List AnchorSection
  publisher : Option String
  publisherAttestations : List AnchorSignature
deriving DecidableEq

/-- What `parseAnchorV3` returns. -/
structure FoldBundle extends AnchorBundle where
  archiveCount : JsNum
  archive : Option AnchorArchive
deriving DecidableEq

/-- `ANCHOR_BUNDLE_VERSION` -/
def ANCHOR_BUNDLE_VERSION : ℕ := 0

/-- `ANCHOR_FOLD_VERSION` -/
def ANCHOR_FOLD_VERSION : ℕ := 3

/-! ### The order of a bundle -/

/-- Some element is followed by one with a smaller key. -/
def descends {α : Type} (key : α → String) : List α → Bool
  | x :: y :: rest =>
    decide (utf16Units (key y) < utf16Units (key x)) || descends key (y :: rest)
  | _ => false

/-- The registry row of the order gate; the environment of a process may name another height for
`regtest`. -/
def ANCHOR_BUNDLE_ORDER_ACTIVATION (regtest : ℕ) : GateTable :=
  [("mainnet", some UNARMED), ("BTC:testnet", some 155001), ("LTC:testnet", some 4906040),
    ("DOGE:testnet", some 67962387), ("testnet", some UNARMED), ("regtest", some regtest)]

/-- `enforceAnchorBundleOrder` -/
def enforceAnchorBundleOrder (orderGate : GateTable) (network : String) (blockIndex : Js)
    (sections : List AnchorSection) : Except String Unit :=
  let finite := match blockIndex with
    | .num x => x.isFinite
    | _ => false
  if !finite || !activeAt orderGate (.str network) (some "DOGE") blockIndex then .ok ()
  else if descends AnchorSection.chain sections then
    .error "LightClient: ANCHOR sections not CHAIN-ascending"
  else match sections.findIdx? fun s => descends AnchorSignature.pubkey s.validatorSignatures with
    | some s => .error ("LightClient: ANCHOR section " ++ natText s ++
        " signatures not PUBKEY-ascending")
    | none => .ok ()

/-! ### Reading a wire -/

/-- A token that matches `/^\d+$/`. -/
def isDigitsToken (s : String) : Bool := !s.toList.isEmpty && s.toList.all Char.isDigit

/-- One token that passes a test. -/
def readToken (test : String → Bool) (err : String) : Reader String String String := do
  let parts ← take 1 err
  check (if test (parts.getD 0 "") then .ok (parts.getD 0 "") else .error err)

/-- The steps of `for (s = 0; s < count; s++)` for a finite count. -/
def loopSteps : JsNum → ℕ
  | .fin q => ⌈q⌉.toNat
  | _ => 0

/-- The array index that a non-negative integer names. -/
def arrayIndex : JsNum → ℕ
  | .fin q => ⌊q⌋.toNat
  | _ => 0

section Parsers

variable (H : Host)

/-- `for (k = 0; k < count; k++)` over pairs of a public key and a signature. -/
def readSignatures (count : JsNum) (missing : ℕ → String) :
    ℕ → Reader String String (List AnchorSignature)
  | k, parts =>
    if !(JsNum.fin k).lt count then .ok ([], parts)
    else match parts with
      | pubkey :: sig :: rest =>
        if pubkey = "" ∨ sig = "" then .error (missing k)
        else do
          let (signatures, rest) ← readSignatures count missing (k + 1) rest
          return (⟨H.toLowerCase pubkey, H.toLowerCase sig⟩ :: signatures, rest)
      | _ => .error (missing k)

/-- The text of an optional tail field: `lowerHex(x) || null`. -/
def lowerOrNull (s : String) : Option String :=
  if H.toLowerCase s = "" then none else some (H.toLowerCase s)

/-- The tokens up to `SECTION_COUNT`: the network, the snapshot block and the count. -/
def readAnchorHeader (version : ℕ) (refused : String → String) :
    Reader String String (String × JsNum × JsNum) := fun parts =>
  let got := parts.headD "undefined"
  if got ≠ natText version then .error (refused got)
  else match parts with
    | _ :: network :: snapshotBlock :: sectionCount :: rest =>
      let count := parseIntText sectionCount
      if !count.isFinite || count.lt (.fin 1) then .error "LightClient: bad ANCHOR SECTION_COUNT"
      else .ok ((network, stringToNumber snapshotBlock, count), rest)
    | _ => .error "LightClient: bad ANCHOR SECTION_COUNT"

/-- `parseAnchorV3Section` -/
def parseAnchorV3Section (network : String) (sectionIndex : ℕ) :
    Reader String String AnchorSection := do
  let parts ← take 13 ("LightClient: truncated ANCHOR section " ++ natText sectionIndex)
  let part i := parts.getD i ""
  let signatureCount := parseIntText (part 12)
  check (if !signatureCount.isFinite || signatureCount.lt (.fin 1) then
    .error ("LightClient: bad ANCHOR SIG_COUNT in section " ++ natText sectionIndex) else .ok ())
  let signatures ← readSignatures H signatureCount (fun k =>
    "LightClient: missing ANCHOR sig at section " ++ natText sectionIndex ++ " index " ++ natText k) 0
  return {
    chain := H.toUpperCase (part 0), network
    blockIndex := stringToNumber (part 1), blockHash := H.toLowerCase (part 2)
    ledgerHash := H.toLowerCase (part 3), actionsHash := H.toLowerCase (part 4)
    contractHash := H.toLowerCase (part 5), checkpointSeq := stringToNumber (part 6)
    snapshotBlock := stringToNumber (part 7), stateRoot := H.toLowerCase (part 8)
    stateRootVersion := stringToNumber (part 9), blockMerkleRoot := H.toLowerCase (part 10)
    blockMerkleVersion := stringToNumber (part 11), validatorSignatures := signatures }

/-- The publisher and its attestations. -/
def readAnchorV3Tail : Reader String String (Option String × List AnchorSignature) := do
  let parts ← take 2 "LightClient: bad ANCHOR ATTEST_SIG_COUNT"
  check (if isDigitsToken (parts.getD 1 "") then .ok ()
    else .error "LightClient: bad ANCHOR ATTEST_SIG_COUNT")
  let attestations ← readSignatures H (stringToNumber (parts.getD 1 "")) (fun k =>
    "LightClient: missing ANCHOR attestation at index " ++ natText k) 0
  return (lowerOrNull H (parts.getD 0 ""), attestations)

/-- `parseAnchorV3Tail` -/
def parseAnchorV3Tail : Reader String String (Option String × List AnchorSignature) := do
  let tail ← readAnchorV3Tail H
  atEnd "LightClient: trailing ANCHOR v3 fields"
  return tail

/-- The archive after an `ARCHIVE_COUNT` of 1. -/
def readAnchorArchive (sections : ℕ) : Reader String String AnchorArchive := do
  let wrapperToken ← readToken isDigitsToken "LightClient: invalid: WRAPPER_SECTION_INDEX"
  let wrapperSectionIndex := stringToNumber wrapperToken
  check (if wrapperSectionIndex.lt (.fin 0) || !wrapperSectionIndex.lt (.fin sections) then
    .error "LightClient: invalid: WRAPPER_SECTION_INDEX" else .ok ())
  let parts ← take 5 "LightClient: invalid: ARCHIVE_COUNT"
  return {
    wrapperSectionIndex := arrayIndex wrapperSectionIndex
    matchBatchSeq := stringToNumber (parts.getD 0 ""), matchCount := stringToNumber (parts.getD 1 "")
    batchCrc32 := H.toLowerCase (parts.getD 2 ""), totalChunks := stringToNumber (parts.getD 3 "")
    archiveB64 := parts.getD 4 "" }

/-- The archive, when `ARCHIVE_COUNT` is 1. -/
def readFold (archiveCountToken : String) (sections : ℕ) :
    Reader String String (Option AnchorArchive) :=
  if archiveCountToken = "1" then do
    let archive ← readAnchorArchive H sections
    return some archive
  else return none

/-- `sections[wrapperSectionIndex].fold_archive = { … }` -/
def attachFold (archive : Option AnchorArchive) (sections : List AnchorSection) :
    List AnchorSection :=
  match archive with
  | none => sections
  | some a => sections.modify a.wrapperSectionIndex fun s =>
    { s with foldArchive := some a.toFoldArchive }

/-- The body of `parseAnchorV3` up to its tail: the bundle for a publisher and attestations. -/
def readAnchorV3Body (orderGate : GateTable) (blockIndex : Js) :
    Reader String String (Option String × List AnchorSignature → FoldBundle) := do
  let (network, snapshotBlock, sectionCount) ← readAnchorHeader ANCHOR_FOLD_VERSION fun got =>
    "LightClient: not an ANCHOR v3 bundle (got VERSION " ++ got ++ ")"
  let sections ← times (parseAnchorV3Section H network) (loopSteps sectionCount) 0
  check (enforceAnchorBundleOrder orderGate network blockIndex sections)
  let archiveCountToken ← readToken (fun t => t == "0" || t == "1")
    "LightClient: invalid: ARCHIVE_COUNT"
  let archive ← readFold H archiveCountToken sections.length
  return fun (publisher, publisherAttestations) => {
    version := ANCHOR_FOLD_VERSION, network, snapshotBlock, sectionCount
    sections := attachFold archive sections
    archiveCount := stringToNumber archiveCountToken, archive, publisher, publisherAttestations }

/-- `parseAnchorV3` on the segments of a wire. -/
def parseAnchorV3Parts (orderGate : GateTable) (blockIndex : Js) : Reader String String FoldBundle := do
  let bundle ← readAnchorV3Body H orderGate blockIndex
  let tail ← parseAnchorV3Tail H
  return bundle tail

/-- The segments of a wire, without a leading `ANCHOR` in any case. -/
def wireParts (wire : String) : List String :=
  match (wire.toList.splitOn '|').map String.ofList with
  | p :: parts => if asciiLower p = "anchor" then parts else p :: parts
  | [] => []

/-- `parseAnchorV3` -/
def parseAnchorV3 (orderGate : GateTable) (blockIndex : Js) (wire : String) :
    Except String FoldBundle :=
  (parseAnchorV3Parts H orderGate blockIndex (wireParts wire)).map Prod.fst

/-- One section in the loop of `parseAnchorV0`. -/
def parseAnchorV0Section (network : String) (s : ℕ) : Reader String String AnchorSection := do
  let p ← take 13 ("LightClient: truncated ANCHOR section " ++ natText s)
  let n := parseIntText (p.getD 12 "")
  check (if !n.isFinite || n.lt (.fin 1) then
    .error ("LightClient: bad ANCHOR SIG_COUNT in section " ++ natText s) else .ok ())
  let signatures ← readSignatures H n (fun k =>
    "LightClient: missing ANCHOR sig at section " ++ natText s ++ " index " ++ natText k) 0
  return {
    chain := H.toUpperCase (p.getD 0 ""), network
    blockIndex := stringToNumber (p.getD 1 ""), blockHash := H.toLowerCase (p.getD 2 "")
    ledgerHash := H.toLowerCase (p.getD 3 ""), actionsHash := H.toLowerCase (p.getD 4 "")
    contractHash := H.toLowerCase (p.getD 5 ""), checkpointSeq := stringToNumber (p.getD 6 "")
    snapshotBlock := stringToNumber (p.getD 7 ""), stateRoot := H.toLowerCase (p.getD 8 "")
    stateRootVersion := stringToNumber (p.getD 9 ""), blockMerkleRoot := H.toLowerCase (p.getD 10 "")
    blockMerkleVersion := stringToNumber (p.getD 11 ""), validatorSignatures := signatures }

/-- The tail of `parseAnchorV0`: an absent or zero count has no attestations, and nothing asks for
the end of the wire. -/
def parseAnchorV0Tail : Reader String String (Option String × List AnchorSignature) := fun p => do
  let publisher := lowerOrNull H (p.getD 0 "")
  let attestCount := match p.drop 1 with
    | count :: _ => parseIntText count
    | [] => .nan
  if attestCount.isFinite && (JsNum.fin 0).lt attestCount then
    let (attestations, rest) ← readSignatures H attestCount (fun k =>
      "LightClient: missing ANCHOR attestation at index " ++ natText k) 0 (p.drop 2)
    return ((publisher, attestations), rest)
  else return ((publisher, []), p)

/-- `parseAnchorV0` on the segments of a wire. -/
def parseAnchorV0Parts (orderGate : GateTable) (blockIndex : Js) :
    Reader String String AnchorBundle := do
  let (network, snapshotBlock, sectionCount) ← readAnchorHeader ANCHOR_BUNDLE_VERSION fun got =>
    "LightClient: not an ANCHOR bundle (need v0, got VERSION " ++ got ++ ")"
  let sections ← times (parseAnchorV0Section H network) (loopSteps sectionCount) 0
  check (enforceAnchorBundleOrder orderGate network blockIndex sections)
  let (publisher, publisherAttestations) ← parseAnchorV0Tail H
  return {
    version := ANCHOR_BUNDLE_VERSION, network, snapshotBlock, sectionCount, sections
    publisher, publisherAttestations }

/-- `parseAnchorV0` -/
def parseAnchorV0 (orderGate : GateTable) (blockIndex : Js) (wire : String) :
    Except String AnchorBundle :=
  (parseAnchorV0Parts H orderGate blockIndex (wireParts wire)).map Prod.fst

end Parsers

end XChainSdk
