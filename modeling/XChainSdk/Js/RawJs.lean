import XChainSdk.Js.CodeUnits
import XChainSdk.Js.Value

/-!
# Values with their own strings

A value of the wire whose strings are code units.  The program hashes strings, reads numbers and
hexadecimals in them and compares them with ASCII texts, none of which tells half of a surrogate pair
from U+FFFD; what it reports, and what it compares with each other, are the strings themselves.

* `RawJs.text` : the value with the texts of its strings.
* `RawJs.field`, `RawJs.units` : member access and `String(x)`, with `text_field` and `text_units`.
* `RawJs.ownEntries`, `RawJs.iter` : what is listed, with `fieldTexts_ownEntries` and `map_texts_iter`.
* `RawJs.ofJs` : the value whose strings are those of the texts.
-/

namespace XChainSdk

/-- A value. -/
inductive RawJs where
  | undefined
  | null
  | bool (b : Bool)
  | num (x : JsNum)
  | bigint (z : ℤ)
  | str (s : CodeUnits)
  | arr (xs : List RawJs)
  | obj (fields : List (String × RawJs))

namespace RawJs

mutual

/-- The value with the texts of its strings. -/
def text : RawJs → Js
  | undefined => .undefined
  | null => .null
  | bool b => .bool b
  | num x => .num x
  | bigint z => .bigint z
  | str s => .str s.text
  | arr xs => .arr (texts xs)
  | obj fs => .obj (fieldTexts fs)

def texts : List RawJs → List Js
  | [] => []
  | x :: xs => x.text :: texts xs

def fieldTexts : List (String × RawJs) → List (String × Js)
  | [] => []
  | (k, x) :: fs => (k, x.text) :: fieldTexts fs

end

/-- `x == null`. -/
def isNullish (x : RawJs) : Bool := x.text.isNullish

/-- `x === undefined`. -/
def isUndefined : RawJs → Bool
  | undefined => true
  | _ => false

/-- `x || y`. -/
def or (x y : RawJs) : RawJs := if x.text.truthy then x else y

/-- `x[k]` of a value that is known not to be nullish. -/
def field (x : RawJs) (k : String) : RawJs :=
  match x with
  | obj fs => (fs.lookup k).getD undefined
  | arr xs => if k = "length" then num (.fin xs.length) else undefined
  | str s => if k = "length" then num (.fin s.length) else undefined
  | _ => undefined

mutual

/-- `String(x)`. -/
def units : RawJs → CodeUnits
  | str s => s
  | arr xs => .join 0x2C (joinUnits xs)
  | undefined => .ofText "undefined"
  | null => .ofText "null"
  | bool b => .ofText (Js.bool b).toText
  | num x => .ofText (Js.num x).toText
  | bigint z => .ofText (Js.bigint z).toText
  | obj _ => .ofText "[object Object]"

/-- What `Array.prototype.join` joins. -/
def joinUnits : List RawJs → List CodeUnits
  | [] => []
  | x :: xs => (if x.text.isNullish then [] else x.units) :: joinUnits xs

end

/-- The string of one element in `Array.prototype.join`. -/
def elemUnits (x : RawJs) : CodeUnits := if x.isNullish then [] else x.units

/-! ### Texts -/

/-- One unit of a text after the other. -/
theorem codeUnits_text (s : CodeUnits) : Js.codeUnits s.text = s.map unitChar := by
  rw [Js.codeUnits, CodeUnits.text, String.toList_ofList]
  induction s using CodeUnits.chars.induct with
  | case1 u v rest hpair ih =>
    have hbig : ¬ (pairChar u v).toNat < 0x10000 := by
      rw [toNat_pairChar hpair]
      omega
    obtain ⟨h1, h2, h3, h4⟩ := hpair
    have hu : IsSurrogate u := ⟨h1, by omega⟩
    have hv : IsSurrogate v := ⟨by omega, h4⟩
    rw [CodeUnits.chars, if_pos ⟨h1, h2, h3, h4⟩, List.flatMap_cons, if_neg hbig, ih, List.map_cons,
      List.map_cons, unitChar, if_pos hu, unitChar, if_pos hv]
    rfl
  | case2 u v rest hpair ih =>
    rw [CodeUnits.chars, if_neg hpair, List.flatMap_cons, ih, if_pos (toNat_unitChar_lt u)]
    rfl
  | case3 u => simp [CodeUnits.chars, toNat_unitChar_lt u]
  | case4 => rfl

theorem length_codeUnits_text (s : CodeUnits) : (Js.codeUnits s.text).length = s.length := by
  rw [codeUnits_text, List.length_map]

theorem length_texts (xs : List RawJs) : (texts xs).length = xs.length := by
  induction xs with
  | nil => rfl
  | cons x xs ih => rw [texts, List.length_cons, List.length_cons, ih]

theorem lookup_fieldTexts (fs : List (String × RawJs)) (k : String) :
    (fieldTexts fs).lookup k = (fs.lookup k).map text := by
  induction fs with
  | nil => rfl
  | cons e fs ih =>
    obtain ⟨k', x⟩ := e
    rw [fieldTexts, List.lookup_cons, List.lookup_cons, ih]
    cases k == k' <;> rfl

theorem text_field (x : RawJs) (k : String) : (x.field k).text = x.text.field k := by
  cases x with
  | obj fs =>
    rw [field, text, Js.field, Js.get, Option.getD_some, Js.member, lookup_fieldTexts]
    cases fs.lookup k <;> rfl
  | arr xs =>
    rw [field, text, Js.field, Js.get, Option.getD_some, length_texts]
    split <;> rfl
  | str s =>
    rw [field, text, Js.field, Js.get, Option.getD_some, length_codeUnits_text]
    split <;> rfl
  | _ => rfl

mutual

/-- `String(x)` has the text that is hashed of it. -/
theorem text_units : ∀ x : RawJs, x.units.text = x.text.toText
  | undefined => CodeUnits.text_ofText _
  | null => CodeUnits.text_ofText _
  | bool _ => CodeUnits.text_ofText _
  | num _ => CodeUnits.text_ofText _
  | bigint _ => CodeUnits.text_ofText _
  | obj _ => CodeUnits.text_ofText _
  | str s => (Js.toText_str s.text).symm
  | arr xs => by
    rw [units, CodeUnits.text_join (by decide), map_text_joinUnits xs, text, Js.toText]
    rfl

theorem map_text_joinUnits : ∀ xs : List RawJs,
    (joinUnits xs).map CodeUnits.text = Js.joinTexts (texts xs)
  | [] => rfl
  | x :: xs => by
    rw [joinUnits, List.map_cons, map_text_joinUnits xs, texts, Js.joinTexts]
    cases x.text.isNullish with
    | true => rfl
    | false => rw [if_neg (by decide), if_neg (by decide), text_units x]

end

theorem text_elemUnits (x : RawJs) : x.elemUnits.text = x.text.elemText := by
  rw [elemUnits, Js.elemText, isNullish]
  split_ifs
  · rfl
  · exact text_units x

/-! ### Values of texts -/

/-- A text that is served. -/
def ofText (s : String) : RawJs := str (.ofText s)

@[simp] theorem text_ofText (s : String) : (ofText s).text = .str s := by
  rw [ofText, text, CodeUnits.text_ofText]

mutual

/-- The value whose strings are those of the texts. -/
def ofJs : Js → RawJs
  | .undefined => undefined
  | .null => null
  | .bool b => bool b
  | .num x => num x
  | .bigint z => bigint z
  | .str s => ofText s
  | .arr xs => arr (ofJsList xs)
  | .obj fs => obj (ofJsFields fs)

def ofJsList : List Js → List RawJs
  | [] => []
  | x :: xs => ofJs x :: ofJsList xs

def ofJsFields : List (String × Js) → List (String × RawJs)
  | [] => []
  | (k, x) :: fs => (k, ofJs x) :: ofJsFields fs

end

mutual

@[simp] theorem text_ofJs : ∀ x : Js, (ofJs x).text = x
  | .undefined => rfl
  | .null => rfl
  | .bool _ => rfl
  | .num _ => rfl
  | .bigint _ => rfl
  | .str s => text_ofText s
  | .arr xs => by rw [ofJs, text, texts_ofJsList xs]
  | .obj fs => by rw [ofJs, text, fieldTexts_ofJsFields fs]

theorem texts_ofJsList : ∀ xs : List Js, texts (ofJsList xs) = xs
  | [] => rfl
  | x :: xs => by rw [ofJsList, texts, text_ofJs x, texts_ofJsList xs]

theorem fieldTexts_ofJsFields : ∀ fs : List (String × Js), fieldTexts (ofJsFields fs) = fs
  | [] => rfl
  | (k, x) :: fs => by rw [ofJsFields, fieldTexts, text_ofJs x, fieldTexts_ofJsFields fs]

end

/-! ### Members and elements -/

/-- `Object.keys(x)` with their values. -/
def ownEntries : RawJs → List (String × RawJs)
  | obj fs => fs
  | arr xs => xs.zipIdx.map fun (x, i) => (toString i, x)
  | str s => s.zipIdx.map fun (u, i) => (toString i, str [u])
  | _ => []

/-- The values that `for … of` visits; a value that is not iterable throws. -/
def iter : RawJs → Option (List RawJs)
  | arr xs => some xs
  | str s => some (s.points.map str)
  | _ => none

theorem text_or (x y : RawJs) : (x.or y).text = x.text.or y.text := by
  rw [or, Js.or]
  split_ifs <;> rfl

theorem texts_eq_map (xs : List RawJs) : texts xs = xs.map text := by
  induction xs with
  | nil => rfl
  | cons x xs ih => rw [texts, ih, List.map_cons]

theorem fieldTexts_eq_map (fs : List (String × RawJs)) :
    fieldTexts fs = fs.map fun (k, x) => (k, x.text) := by
  induction fs with
  | nil => rfl
  | cons e fs ih =>
    obtain ⟨k, x⟩ := e
    rw [fieldTexts, ih, List.map_cons]

theorem mem_fieldTexts {fs : List (String × RawJs)} {k : String} {x : RawJs} (h : (k, x) ∈ fs) :
    (k, x.text) ∈ fieldTexts fs := by
  rw [fieldTexts_eq_map]
  exact List.mem_map.2 ⟨(k, x), h, rfl⟩

theorem map_texts_iter (x : RawJs) : x.iter.map texts = x.text.iter := by
  cases x with
  | arr xs => rfl
  | str s =>
    rw [iter, Option.map_some, texts_eq_map, List.map_map, text, Js.iter, CodeUnits.text,
      String.toList_ofList]
    have hpoints := congrArg (List.map Js.str) (CodeUnits.map_text_points s)
    rw [List.map_map, List.map_map] at hpoints
    exact congrArg some hpoints
  | _ => rfl

theorem fieldTexts_ownEntries (x : RawJs) :
    fieldTexts x.ownEntries = x.text.ownEntries.getD [] := by
  cases x with
  | obj fs => rfl
  | arr xs =>
    rw [fieldTexts_eq_map, ownEntries, List.map_map, text, Js.ownEntries, Option.getD_some,
      texts_eq_map, List.zipIdx_map, List.map_map]
    rfl
  | str s =>
    rw [fieldTexts_eq_map, ownEntries, List.map_map, text, Js.ownEntries, Option.getD_some,
      codeUnits_text, List.zipIdx_map, List.map_map]
    rfl
  | _ => rfl

end RawJs

end XChainSdk
