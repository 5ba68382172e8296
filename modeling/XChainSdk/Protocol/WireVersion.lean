import XChainSdk.Js.Blanks
import XChainSdk.Protocol.Formats

/-!
# The first tokens of an action string

An action string is `ACTION|VERSION|F1|F2|...`.  The action may be an alias, and `ISSUE`, `MINT` and
`SEND` may leave out the version.

* `expandAlias`, `formatVersion`, `isLegacyActionFormat` : as the indexer reads them.
* `readSegments` : the version and the values that the decoder works on.
* `formatVersion_trim` : blanks around a version do not change what it reads as.
-/

namespace XChainSdk

/-- `ACTION_ALIASES` -/
def actionAliases : List (String × String) :=
  [("TRANSFER", "SEND"), ("ADDR", "ADDRESS"), ("DROP", "AIRDROP"), ("CAST", "BROADCAST"),
    ("MSG", "MESSAGE")]

/-- `expandAlias` -/
def expandAlias (action : String) : String := (actionAliases.lookup action).getD action

/-- `text.split('|')` -/
def splitPipes (text : String) : List String := (text.toList.splitOn '|').map String.ofList

/-- `format.replace(/\"|\'/g, '')` -/
def stripQuotes (s : String) : String :=
  String.ofList (s.toList.filter fun c => c != '"' && c != '\x27')

/-- `formatVersion` of a wire field; there is none past the last one. -/
def formatVersion : Option String → Option JsNum
  | none => some (.fin 0)
  | some format =>
    if format = "" then some (.fin 0)
    else
      let format := stripQuotes format
      if isNumericText format && (parseFloatText format).isInt32 &&
          (stringToNumber format).le (.fin 255) then some (parseIntText format)
      else none

/-- `LEGACY_FORMAT_ACTIONS` -/
def legacyFormatActions : List String := ["ISSUE", "MINT", "SEND"]

/-- `isLegacyActionFormat`; the text of a missing first value is `undefined`. -/
def isLegacyActionFormat : List String → Bool
  | [] => true
  | version :: _ => decide (2 < utf16Length version) || !isNumericText version

/-- The values with the implied version in place. -/
def injectVersion (action : String) (params : List String) : List String :=
  if legacyFormatActions.contains action && isLegacyActionFormat params then "0" :: params
  else params

/-- `parseVersion`: one or two digits. -/
def parseVersion : Option String → Option JsNum
  | none => none
  | some segment =>
    let ds := segment.toList
    if ds ≠ [] ∧ ds.length ≤ 2 ∧ ds.all Char.isDigit then some (.fin (digitsValue ds)) else none

/-- What the decoder reads of the segments. -/
structure ReadSegments where
  version : Option JsNum
  valueSegs : List String
  legacy : Bool
  deriving DecidableEq

/-- `readVersion` -/
def readVersion (action : String) (valueSegs : List String) : ReadSegments where
  version := formatVersion (injectVersion action valueSegs).head?
  valueSegs := injectVersion action valueSegs
  legacy := legacyFormatActions.contains action && isLegacyActionFormat valueSegs

/-- `trimSegments` -/
def trimSegments (segments : List String) : List String := segments.map trim

/-- `readSegments` -/
def readSegments (action : String) (segments : List String) (strictWire : Bool) : ReadSegments :=
  if strictWire then ⟨parseVersion segments[1]?, segments.drop 1, false⟩
  else
    let read := readVersion action (trimSegments (segments.drop 1))
    match read.version with
    | none => read
    | some version =>
      { read with valueSegs := numberToString version :: read.valueSegs.drop 1 }

/-! ### Blanks around a version -/

section Blanks

variable {s : String}

/-- A text is its trimmed text between blanks. -/
theorem exists_padded (s : String) : ∃ ws ws', Blank ws ∧ Blank ws' ∧
    s = String.ofList (ws ++ (trim s).toList ++ ws') := by
  obtain ⟨ws, ws', h, h', hs⟩ := exists_trim s.toList
  refine ⟨ws, ws', h, h', ?_⟩
  rw [trim, String.toList_ofList, ← hs, String.ofList_toList]

theorem isNumericText_trim (s : String) : isNumericText (trim s) = isNumericText s := by
  obtain ⟨ws, ws', h, h', hs⟩ := exists_padded s
  conv_rhs => rw [hs]
  rw [isNumericText, isNumericText, parseFloatText_padded h h', stringToNumber_padded h h',
    String.ofList_toList]

theorem isNumericText_empty : isNumericText "" = false := by decide

theorem utf16Length_trim_le (s : String) : utf16Length (trim s) ≤ utf16Length s := by
  obtain ⟨ws, ws', -, -, hs⟩ := exists_padded s
  conv_rhs => rw [hs]
  simp only [utf16Length, String.toList_ofList, List.map_append, List.sum_append]
  omega

theorem stripQuotes_padded {ws ws' cs : List Char} (h : Blank ws) (h' : Blank ws') :
    stripQuotes (String.ofList (ws ++ cs ++ ws')) =
      String.ofList (ws ++ (stripQuotes (String.ofList cs)).toList ++ ws') := by
  have hkeep : ∀ us : List Char, Blank us →
      us.filter (fun c => c != '"' && c != '\x27') = us := fun us hus =>
    List.filter_eq_self.2 fun c hc => by
      have hdouble : c ≠ '"' := ne_of_blank (hus c hc) (by decide)
      have hsingle : c ≠ '\x27' := ne_of_blank (hus c hc) (by decide)
      simp [hdouble, hsingle]
  simp only [stripQuotes, String.toList_ofList, List.filter_append, hkeep ws h, hkeep ws' h']

/-- Blanks around a version do not change what it reads as. -/
theorem formatVersion_trim (hne : trim s ≠ "") :
    formatVersion (some (trim s)) = formatVersion (some s) := by
  obtain ⟨ws, ws', h, h', hs⟩ := exists_padded s
  have hempty : s ≠ "" := by
    rintro rfl
    exact hne rfl
  have hstrip : stripQuotes s =
      String.ofList (ws ++ (stripQuotes (trim s)).toList ++ ws') := by
    conv_lhs => rw [hs]
    rw [stripQuotes_padded h h', String.ofList_toList]
  rw [formatVersion, formatVersion, if_neg hne, if_neg hempty]
  simp only [hstrip, isNumericText, parseFloatText_padded h h', stringToNumber_padded h h',
    parseIntText_padded h h', String.ofList_toList]
  rfl

/-- A version of blanks is none. -/
theorem formatVersion_blank (hblank : trim s = "") (hne : s ≠ "") :
    formatVersion (some s) = none := by
  obtain ⟨ws, ws', h, h', hs⟩ := exists_padded s
  have hstrip : stripQuotes s = String.ofList (ws ++ [] ++ ws') := by
    conv_lhs => rw [hs, hblank]
    exact stripQuotes_padded h h'
  have hnumeric : isNumericText (stripQuotes s) = false := by
    rw [hstrip, isNumericText, parseFloatText_padded h h', stringToNumber_padded h h']
    exact isNumericText_empty
  rw [formatVersion, if_neg hne]
  simp only [hnumeric, Bool.false_and]
  rfl

end Blanks

end XChainSdk
