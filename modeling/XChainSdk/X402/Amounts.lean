import XChainSdk.Js.Decimal
import XChainSdk.Js.Value

/-!
# Amounts and action strings of a payment

* `gte`, `isPosNum` : the comparison of two amounts, and the amounts that a payment may have.
* `SEND_LAYOUTS` : where the outputs of a `SEND` stand, by its version.
* `parseActionString` : the outputs of a decoded action string; `none` for a malformed one.
-/

namespace XChainSdk

/-- Unicode normalization, beside what the runtime supplies. -/
structure TextHost extends Host where
  /-- `s.normalize('NFC')`. -/
  normalizeNFC : String → String
  normalizeNFC_ascii : ∀ s, IsAscii s → normalizeNFC s = s

/-- A runtime without tables beyond ASCII. -/
def plainTextHost : TextHost := { plainHost with
  normalizeNFC := fun s => s
  normalizeNFC_ascii := fun _ _ => rfl }

/-- `bn(a).gte(bn(b))`; a text that is no number throws. -/
def gte (M : MathJs) (a b : String) : Option Bool := do
  let x ← M.bignumber a
  let y ← M.bignumber b
  return y.le x

/-- A plain decimal above zero. -/
def isPosNum (M : MathJs) (v : String) : Bool :=
  isNonNegativeDecimal v && match M.bignumber v with
    | some (.fin q) => decide (0 < q)
    | _ => false

/-- The segments that hold one output. -/
structure OutputMap where
  tick : ℕ
  amount : ℕ
  destination : ℕ
  memo : ℕ

/-- The number of segments of a version, and its outputs. -/
structure SendLayout where
  count : ℕ
  outputs : List OutputMap

/-- The layouts by version. -/
def SEND_LAYOUTS : List (ℚ × SendLayout) := [
  (0, ⟨6, [⟨2, 3, 4, 5⟩]⟩),
  (1, ⟨8, [⟨2, 3, 4, 7⟩, ⟨2, 5, 6, 7⟩]⟩),
  (2, ⟨9, [⟨2, 3, 4, 8⟩, ⟨5, 6, 7, 8⟩]⟩),
  (3, ⟨10, [⟨2, 3, 4, 5⟩, ⟨6, 7, 8, 9⟩]⟩)]

/-- The layout under the key that a version reads as. -/
def sendLayout (version : String) : Option SendLayout :=
  match stringToNumber version with
  | .fin q => SEND_LAYOUTS.lookup q
  | _ => none

/-- One output of a payment, as a row or an action string gives it. -/
structure SendOutput where
  tick : Js
  amount : Js
  destination : Js
  memo : Js

/-- An action string with the outputs of a `SEND`. -/
structure ParsedAction where
  action : String
  version : String
  outputs : List SendOutput

/-- `/^[A-Z_]{2,32}$/`. -/
def isActionName (s : String) : Bool :=
  2 ≤ s.length && s.length ≤ 32 && s.toList.all fun c => c.isUpper || c == '_'

section Parsing

variable (H : TextHost) (M : MathJs)

/-- One output of the segments; an amount that is not positive makes the string malformed. -/
def sendOutput (segments : List String) (map : OutputMap) : Option SendOutput :=
  let segment i := segments.getD i ""
  if isPosNum M (segment map.amount) then
    some ⟨.str (H.toUpperCase (segment map.tick)), .str (segment map.amount),
      .str (segment map.destination), .str (trim (segment map.memo))⟩
  else none

/-- The action of a decoded string, with the amount and memo that belong to each destination. -/
def parseActionString (text : Js) : Option ParsedAction :=
  match text with
  | .str "" => none
  | .str text =>
    let segments := ((H.normalizeNFC text).toList.splitOn '|').map String.ofList
    let action := H.toUpperCase (trim (segments.getD 0 ""))
    let version := trim (segments.getD 1 "")
    if isActionName action = false then none
    else if action ≠ "SEND" then some ⟨action, version, []⟩
    else
      match sendLayout version with
      | none => none
      | some layout =>
        -- the count is exact, so that a pipe in a memo shifts no field
        if segments.length ≠ layout.count then none
        else (layout.outputs.mapM (sendOutput H M segments)).map fun outputs =>
          ⟨action, version, outputs⟩
  | _ => none

end Parsing

end XChainSdk
