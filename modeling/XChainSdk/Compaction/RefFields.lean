import XChainSdk.Js.Value
import XChainSdk.Lib.Dict

/-!
# The fields that refer to tokens and addresses

* `camelToUpperSnake`, `normalizeFields` : the names under which the composer reads a caller's keys.
* `TICK_REF_FIELDS`, `SDK_COMPACTABLE_BY_ACTION` : the fields whose values may be compacted.
-/

namespace XChainSdk

open Js

/-! ### The names of fields -/

/-- A capital behind a small letter or a digit starts a word. -/
def splitWords : List Char → List Char
  | a :: b :: cs =>
    if (a.isLower || a.isDigit) && b.isUpper then a :: '_' :: splitWords (b :: cs)
    else a :: splitWords (b :: cs)
  | cs => cs

/-- `camelToUpperSnake` -/
def camelToUpperSnake (H : Host) (key : String) : String :=
  H.toUpperCase (String.ofList (splitWords key.toList))

/-- `normalizeFields`: of two keys with one name, the later one wins. -/
def normalizeFields (H : Host) (data : Dict String Js) : Dict String Js :=
  data.entries.foldl (fun normalized e => normalized.set (camelToUpperSnake H e.1) e.2) .empty

/-- The key that a name is read from: the last one that spells it. -/
def fieldKeys (H : Host) (data : Dict String Js) : Dict String String :=
  data.keys.foldl (fun fields key => fields.set (camelToUpperSnake H key) key) .empty

/-! ### Tokens -/

/-- The fields that name an existing token and may be compacted. -/
def TICK_REF_FIELDS : List String :=
  ["TICK", "GIVE_TICK", "GET_TICK", "DIVIDEND_TICK", "CALLBACK_TICK"]

/-- The formats of an `ISSUE` that only edit an existing token. -/
def ISSUE_TICK_COMPACT_FORMATS : List String := ["6", "7"]

/-! ### Addresses -/

/-- A field of an action that holds an address. -/
structure RefSpec where
  field : String
  /-- it can repeat -/
  multi : Bool
  /-- it holds addresses only in a list of addresses -/
  listType : Bool
  /-- it has an id that must not be written -/
  noCompact : Bool

/-- A field with one address. -/
def RefSpec.single (field : String) : RefSpec := ⟨field, false, false, false⟩

def ADDRESS_REF_FIELDS : List (String × List RefSpec) :=
  [("SEND", [⟨"DESTINATION", true, false, false⟩]),
    ("MINT", [.single "DESTINATION"]),
    ("MESSAGE", [.single "DESTINATION"]),
    ("SWEEP", [.single "DESTINATION"]),
    ("ISSUE", [.single "TRANSFER", .single "TRANSFER_SUPPLY"]),
    ("DISPENSER", [⟨"GET_ADDRESS", false, false, true⟩, ⟨"ORACLE_ADDRESS", false, false, true⟩]),
    ("ORDER", [.single "GET_ADDRESS"]),
    ("SWAP", [.single "GET_ADDRESS"]),
    ("DEPLOY", [.single "SLASH_DESTINATION"]),
    ("LIST", [⟨"ITEM", true, true, false⟩])]

/-- The fields of each action that may be compacted. -/
def SDK_COMPACTABLE_BY_ACTION : List (String × List String) :=
  ADDRESS_REF_FIELDS.map fun (action, specs) =>
    (action, (specs.filter fun spec => !spec.multi && !spec.listType && !spec.noCompact).map
      RefSpec.field)

/-- The fields of an action that may be compacted; an unknown action has none. -/
def compactableOf (action : String) : List String :=
  (SDK_COMPACTABLE_BY_ACTION.lookup action).getD []

end XChainSdk
