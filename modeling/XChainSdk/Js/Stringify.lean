import XChainSdk.Js.Value

/-!
# `JSON.stringify`

* `jsonText` : the text of a value; `none` is a thrown error.
-/

namespace XChainSdk

/-- A character inside a JSON string. -/
def quotedChar (c : Char) : List Char :=
  match c.toNat with
  | 0x22 | 0x5C => [Char.ofNat 0x5C, c]
  | 0x08 => "\\b".toList
  | 0x0C => "\\f".toList
  | 0x0A => "\\n".toList
  | 0x0D => "\\r".toList
  | 0x09 => "\\t".toList
  | n =>
    -- the other control characters have four hexadecimal digits
    if n < 0x20 then "\\u00".toList ++ [Hash.hexDigit (n / 16), Hash.hexDigit (n % 16)] else [c]

/-- The JSON text of a string. -/
def quoted (s : String) : String :=
  String.ofList (['"'] ++ s.toList.flatMap quotedChar ++ ['"'])

namespace Js

mutual

/-- `JSON.stringify(x)` of an element; a big integer throws. -/
def jsonText : Js → Option String
  | undefined | null => some "null"
  | bool true => some "true"
  | bool false => some "false"
  | num (.fin q) => some (numberToString (.fin q))
  | num _ => some "null"
  | bigint _ => none
  | str s => some (quoted s)
  | arr xs => (elementTexts xs).map fun texts => "[" ++ ",".intercalate texts ++ "]"
  | obj fs => (memberTexts fs).map fun texts => "\x7b" ++ ",".intercalate texts ++ "\x7d"

/-- The texts of elements. -/
def elementTexts : List Js → Option (List String)
  | [] => some []
  | x :: xs =>
    match x.jsonText, elementTexts xs with
    | some text, some texts => some (text :: texts)
    | _, _ => none

/-- The texts of members; one that is `undefined` is left out. -/
def memberTexts : List (String × Js) → Option (List String)
  | [] => some []
  | (_, undefined) :: fs => memberTexts fs
  | (k, x) :: fs =>
    match x.jsonText, memberTexts fs with
    | some text, some texts => some ((quoted k ++ ":" ++ text) :: texts)
    | _, _ => none

end

end Js

example : (Js.arr [.arr [.str "address"], .obj [("address", .str "a\n")]]).jsonText =
    some "[[\"address\"],\x7b\"address\":\"a\\n\"\x7d]" := by decide

end XChainSdk
