import Mathlib.Data.Set.Function
import Mathlib.Data.List.Basic

/-!
# Byte strings, digests and hexadecimal text

* `Bytes` : byte strings, as lists.
* `Digest` : 32-byte strings; a value of any other length cannot be built.
* `CollisionFree H S` : the hash `H` has no collision among the byte strings of `S`.  A hash with
  32-byte digests is never injective on all byte strings, so the security statements of this
  library say which strings were hashed.
* `toHex` / `hexDecode` : hexadecimal text, with `hexDecode_toHex`.
-/

namespace Hash

/-- Byte strings. -/
abbrev Bytes := List UInt8

/-- A 32-byte digest. -/
structure Digest where
  bytes : Bytes
  length_eq : bytes.length = 32
  deriving DecidableEq

namespace Digest

@[ext] theorem ext {a b : Digest} (h : a.bytes = b.bytes) : a = b := by
  cases a; cases b; cases h; rfl

@[simp] theorem length_bytes (d : Digest) : d.bytes.length = 32 := d.length_eq

end Digest

/-- `H` has no collision among the byte strings of `S`. -/
def CollisionFree (H : Bytes → Digest) (S : Set Bytes) : Prop := Set.InjOn H S

theorem CollisionFree.mono {H : Bytes → Digest} {S T : Set Bytes} (h : CollisionFree H T)
    (hST : S ⊆ T) : CollisionFree H S :=
  Set.InjOn.mono hST h

theorem append_inj_of_length {a b c d : Bytes} (h : a ++ b = c ++ d)
    (ha : a.length = 32 ∨ b.length = 32) (hc : c.length = 32) (hd : d.length = 32) :
    a = c ∧ b = d := by
  have hlen := congrArg List.length h
  simp only [List.length_append] at hlen
  exact List.append_inj h (by omega)

/-! ### Hexadecimal text -/

/-- The lower-case hexadecimal digit of a number below 16. -/
def hexDigit (n : ℕ) : Char :=
  if n < 10 then Char.ofNat (48 + n) else Char.ofNat (87 + n)

/-- The value of a hexadecimal digit of either case. -/
def unhex (c : Char) : Option ℕ :=
  if '0' ≤ c ∧ c ≤ '9' then some (c.toNat - 48)
  else if 'a' ≤ c ∧ c ≤ 'f' then some (c.toNat - 87)
  else if 'A' ≤ c ∧ c ≤ 'F' then some (c.toNat - 55)
  else none

/-- The two hexadecimal digits of a byte. -/
def hexByte (b : UInt8) : List Char := [hexDigit (b.toNat / 16), hexDigit (b.toNat % 16)]

/-- `buf.toString('hex')`. -/
def toHex (b : Bytes) : String := String.ofList (b.flatMap hexByte)

/-- Decodes pairs of digits up to the first pair that is not two digits; a last odd digit is
dropped. -/
def hexDecodeChars : List Char → Bytes
  | c :: d :: rest =>
    match unhex c, unhex d with
    | some x, some y => UInt8.ofNat (16 * x + y) :: hexDecodeChars rest
    | _, _ => []
  | _ => []

/-- `Buffer.from(s, 'hex')`. -/
def hexDecode (s : String) : Bytes := hexDecodeChars s.toList

theorem unhex_hexDigit {n : ℕ} (h : n < 16) : unhex (hexDigit n) = some n := by
  revert n; decide

@[simp] theorem hexDecodeChars_flatMap (b : Bytes) : hexDecodeChars (b.flatMap hexByte) = b := by
  induction b with
  | nil => rfl
  | cons x xs ih =>
    have hx : x.toNat < 256 := x.toNat_lt
    have h1 : unhex (hexDigit (x.toNat / 16)) = some (x.toNat / 16) := unhex_hexDigit (by omega)
    have h2 : unhex (hexDigit (x.toNat % 16)) = some (x.toNat % 16) := unhex_hexDigit (by omega)
    have h3 : 16 * (x.toNat / 16) + x.toNat % 16 = x.toNat := Nat.div_add_mod _ _
    simp only [List.flatMap_cons, hexByte, List.cons_append, List.nil_append, hexDecodeChars,
      h1, h2, h3, ih, UInt8.ofNat_toNat]

@[simp] theorem hexDecode_toHex (b : Bytes) : hexDecode (toHex b) = b := by
  simp [hexDecode, toHex]

theorem toHex_injective : Function.Injective toHex := fun a b h => by
  have := congrArg hexDecode h
  simpa using this

@[simp] theorem toHex_inj {a b : Bytes} : toHex a = toHex b ↔ a = b := toHex_injective.eq_iff

end Hash
