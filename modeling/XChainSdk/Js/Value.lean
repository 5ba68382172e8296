import XChainSdk.Lib.Bytes
import XChainSdk.Js.Number
import Mathlib.Tactic.IntervalCases

/-!
# Values that cross the wire

Everything an explorer, a prover or a caller hands to the program is an arbitrary value of the
source's language, so the verifiers are modelled on `Js` and not on the shape they expect.

* `Js` : values.  Objects are plain data: no member of one is a function, and `toString` and
  `valueOf` are not among them (`String` of an object that has them as data throws).
* `Js.toText`, `Js.toNumber`, `Js.parseInt` : `String(x)`, `Number(x)` and `parseInt(x)`.
* `Js.get`, `Js.iter`, `Js.toBuf` : member access, iteration and `Buffer.from(x, 'hex')`; `none`
  is a thrown error.
* `Host` : what the runtime supplies: the Unicode case tables, SHA-256, Ed25519 and `JSON.parse`.
-/

namespace XChainSdk

open Hash

/-- A value. -/
inductive Js where
  | undefined
  | null
  | bool (b : Bool)
  | num (x : JsNum)
  | bigint (z : ℤ)
  | str (s : String)
  | arr (xs : List Js)
  | obj (fields : List (String × Js))

namespace Js

/-- `x == null`. -/
def isNullish : Js → Bool
  | undefined | null => true
  | _ => false

/-- `!!x`. -/
def truthy : Js → Bool
  | undefined | null => false
  | bool b => b
  | num (.fin q) => q != 0
  | num .nan => false
  | num (.inf _) => true
  | bigint z => z != 0
  | str s => s != ""
  | arr _ | obj _ => true

/-- `x || y`. -/
def or (x y : Js) : Js := if x.truthy then x else y

/-- `typeof x === 'string'`, with the string. -/
def str? : Js → Option String
  | str s => some s
  | _ => none

/-- `Array.isArray(x) ? x : []`. -/
def elems : Js → List Js
  | arr xs => xs
  | _ => []

mutual

/-- `String(x)`. -/
def toText : Js → String
  | undefined => "undefined"
  | null => "null"
  | bool true => "true"
  | bool false => "false"
  | num x => numberToString x
  | bigint z => String.ofList (intText z)
  | str s => s
  | arr xs => ",".intercalate (joinTexts xs)
  | obj _ => "[object Object]"

/-- The texts that `Array.prototype.join` joins: nullish elements are empty. -/
def joinTexts : List Js → List String
  | [] => []
  | x :: xs => (if x.isNullish then "" else x.toText) :: joinTexts xs

end

/-- The text of one element in `Array.prototype.join`. -/
def elemText (x : Js) : String := if x.isNullish then "" else x.toText

/-- `Number(x)`. -/
def toNumber : Js → JsNum
  | undefined => .nan
  | null => .fin 0
  | bool b => .fin (if b then 1 else 0)
  | num x => x
  | bigint z => toDouble z
  | str s => stringToNumber s
  | arr xs => stringToNumber (toText (arr xs))
  | obj fs => stringToNumber (toText (obj fs))

/-- `parseInt(x)`. -/
def parseInt (x : Js) : JsNum := parseIntText x.toText

/-- Own member `k` of an object, by its first entry. -/
def member (fs : List (String × Js)) (k : String) : Js := (fs.lookup k).getD undefined

/-- The code units of a string.  Half a surrogate pair is no character; U+FFFD stands for it. -/
def codeUnits (s : String) : List Char :=
  s.toList.flatMap fun c => if c.toNat < 0x10000 then [c] else ['\uFFFD', '\uFFFD']

/-- `x[k]` for the data members the program reads; nullish `x` throws. -/
def get (x : Js) (k : String) : Option Js :=
  match x with
  | undefined | null => none
  | obj fs => some (member fs k)
  | arr xs => some (if k = "length" then num (.fin xs.length) else undefined)
  | str s => some (if k = "length" then num (.fin (codeUnits s).length) else undefined)
  | _ => some undefined

/-- `x[i]` for a number `i`; nullish `x` throws. -/
def index (x : Js) (i : ℕ) : Option Js :=
  match x with
  | undefined | null => none
  | arr xs => some (xs.getD i undefined)
  | str s => some (((codeUnits s)[i]?.map fun c => str (String.ofList [c])).getD undefined)
  | obj fs => some (member fs (toString i))
  | _ => some undefined

/-- `x && x[k]`. -/
def getIf (x : Js) (k : String) : Js := if x.truthy then (x.get k).getD undefined else x

/-- `x[k]` of a value that is known not to be nullish. -/
def field (x : Js) (k : String) : Js := (x.get k).getD undefined

/-- The values that `for … of` visits; a value that is not iterable throws. -/
def iter : Js → Option (List Js)
  | arr xs => some xs
  | str s => some (s.toList.map fun c => str (String.ofList [c]))
  | _ => none

/-- `Object.keys(x)` with their values, in the order of the listing. -/
def ownEntries : Js → Option (List (String × Js))
  | undefined | null => none
  | obj fs => some fs
  | arr xs => some (xs.zipIdx.map fun (x, i) => (toString i, x))
  | str s => some ((codeUnits s).zipIdx.map fun (c, i) => (toString i, str (String.ofList [c])))
  | _ => some []

/-- One element of a byte array: `ToUint8(Number(x))`; a big integer throws. -/
def toUint8 : Js → Option UInt8
  | bigint _ => none
  | x => some <| match x.toNumber with
    | .fin q => UInt8.ofInt (if q < 0 then -⌊-q⌋ else ⌊q⌋)
    | _ => 0

/-- Number of elements that an array-like of numeric `length` has. -/
def arrayLikeLength : JsNum → ℕ
  | .fin q => ⌊q⌋.toNat
  | _ => 0

/-- `Buffer.from(x, 'hex')`.  Only a string is read as hexadecimal text: an array, an array-like
and a serialised buffer are taken element by element, and anything else throws. -/
def toBuf : Js → Option Bytes
  | str s => some (hexDecode s)
  | arr xs => xs.mapM toUint8
  | obj fs =>
    match member fs "length" with
    | undefined =>
      match member fs "type", member fs "data" with
      | str "Buffer", arr xs => xs.mapM toUint8
      | _, _ => none
    | num (.inf false) => none
    | num x => (List.range (arrayLikeLength x)).mapM fun i => toUint8 (member fs (toString i))
    | _ => some []
  | _ => none

@[simp] theorem toText_str (s : String) : (str s).toText = s := by simp [toText]

@[simp] theorem toBuf_str (s : String) : (str s).toBuf = some (hexDecode s) := rfl

theorem getIf_of_truthy {x : Js} (h : x.truthy = true) (k : String) : x.getIf k = x.field k := by
  rw [getIf, if_pos h, field]

@[simp] theorem field_obj (fs : List (String × Js)) (k : String) :
    (obj fs).field k = member fs k := rfl

theorem field_arr {k : String} (hk : k ≠ "length") (xs : List Js) :
    (arr xs).field k = undefined := by
  rw [field, get, if_neg hk, Option.getD_some]

@[simp] theorem get_obj (fs : List (String × Js)) (k : String) :
    (obj fs).get k = some (member fs k) := rfl

end Js

/-- `x === y` for a string `y`. -/
def isText (x : Js) (y : String) : Bool := decide (x.str? = some y)

/-! ### The host runtime -/

/-- All characters below 128. -/
def IsAscii (s : String) : Prop := ∀ c ∈ s.toList, c.toNat < 128

instance (s : String) : Decidable (IsAscii s) :=
  decidable_of_iff (s.toList.all (fun c => decide (c.toNat < 128)) = true) (by simp [IsAscii])

/-- Lower case of a letter `A` to `Z`. -/
def asciiLower (s : String) : String := String.ofList (s.toList.map Char.toLower)

/-- Upper case of a letter `a` to `z`. -/
def asciiUpper (s : String) : String := String.ofList (s.toList.map Char.toUpper)

/-- What the runtime supplies.  The case tables are Unicode's: ASCII text has its ASCII case, lower
case brings in no ASCII character but letters, and the Kelvin sign, whose lower case is `k`, is the
only other character whose lower case is all ASCII. -/
structure Host where
  toLowerCase : String → String
  toUpperCase : String → String
  toLowerCase_ascii : ∀ s, IsAscii s → toLowerCase s = asciiLower s
  toUpperCase_ascii : ∀ s, IsAscii s → toUpperCase s = asciiUpper s
  mem_of_mem_toLowerCase : ∀ s c, c ∈ (toLowerCase s).toList → c.toNat < 128 →
    c.isAlpha = false → c ∈ s.toList
  isAscii_of_toLowerCase : ∀ s, IsAscii (toLowerCase s) → 'k' ∉ (toLowerCase s).toList → IsAscii s
  /-- SHA-256. -/
  sha256 : Bytes → Digest
  /-- `crypto.verify` with a raw Ed25519 public key: key, signature, message. -/
  ed25519 : Bytes → Bytes → Bytes → Bool
  /-- `JSON.parse`; `none` is a syntax error. -/
  parseJson : String → Option Js

theorem toLower_eq_or_isAlpha (c : Char) : c.toLower = c ∨ c.toLower.isAlpha = true := by
  by_cases h : 65 ≤ c.toNat ∧ c.toNat ≤ 90
  · right
    have hc : c = Char.ofNat c.toNat := (Char.ofNat_toNat c).symm
    obtain ⟨h1, h2⟩ := h
    rw [hc]
    interval_cases c.toNat <;> decide
  · exact .inl (dif_neg fun hv => h ⟨hv.1, hv.2⟩)

theorem toLower_toLower (c : Char) : c.toLower.toLower = c.toLower := by
  by_cases h : 65 ≤ c.toNat ∧ c.toNat ≤ 90
  · have hc : c = Char.ofNat c.toNat := (Char.ofNat_toNat c).symm
    obtain ⟨h1, h2⟩ := h
    rw [hc]
    interval_cases c.toNat <;> decide
  · rw [show c.toLower = c from dif_neg fun hv => h ⟨hv.1, hv.2⟩]
    exact dif_neg fun hv => h ⟨hv.1, hv.2⟩

theorem asciiLower_asciiLower (s : String) : asciiLower (asciiLower s) = asciiLower s := by
  simp only [asciiLower, String.toList_ofList, List.map_map]
  congr 1
  exact List.map_congr_left fun c _ => toLower_toLower c

/-- A host whose case tables stop at ASCII and whose `JSON.parse` accepts nothing. -/
def asciiHost (sha256 : Bytes → Digest) (ed25519 : Bytes → Bytes → Bytes → Bool) : Host where
  toLowerCase := asciiLower
  toUpperCase := asciiUpper
  toLowerCase_ascii _ _ := rfl
  toUpperCase_ascii _ _ := rfl
  mem_of_mem_toLowerCase s c hc _ halpha := by
    obtain ⟨d, hd, rfl⟩ := List.mem_map.1 (by simpa [asciiLower] using hc)
    rcases toLower_eq_or_isAlpha d with h | h
    · rw [h]; exact hd
    · simp [h] at halpha
  isAscii_of_toLowerCase s hs _ c hc := by
    have hlow := hs c.toLower (by simpa [asciiLower] using ⟨c, hc, rfl⟩)
    by_contra hbig
    have hself : c.toLower = c := by
      refine dif_neg fun h => hbig ?_
      have h2 : c.val.toNat ≤ 90 := h.2
      exact Nat.lt_of_le_of_lt h2 (by decide)
    exact hbig (hself ▸ hlow)
  sha256 := sha256
  ed25519 := ed25519
  parseJson _ := none

/-- A host without a hash or signatures. -/
def plainHost : Host := asciiHost (fun _ => ⟨List.replicate 32 0, by simp⟩) fun _ _ _ => false

/-- `Buffer.from(s, 'utf8')`. -/
def utf8 (s : String) : Bytes := s.toUTF8.data.toList

theorem utf8_injective : Function.Injective utf8 := fun a b h => by
  have h1 : a.toByteArray.data = b.toByteArray.data := Array.toList_inj.1 h
  exact String.toByteArray_inj.1 (ByteArray.ext h1)

/-- `String(x == null ? '' : x).toLowerCase()`. -/
def lowerHex (H : Host) (x : Js) : String := H.toLowerCase x.elemText

end XChainSdk
