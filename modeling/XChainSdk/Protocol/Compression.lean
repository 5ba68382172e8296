import XChainSdk.Lib.TokenFields
import XChainSdk.Js.Value

/-!
# The compression field of a file

A `FILE` says in its tenth field how its bytes are stored.  The encoder may set it on an action that
left it empty, and the carrier tolerates this one rewrite.

* `compressionFieldOf`, `withCompressionField` : reading the field, and writing it.
* `carriedActionMatches` : the rule of the carrier.
* `compressionField_lens` : **the field is a lens, clearing it restores the text, and only the
  permitted rewrite is tolerated**.
-/

namespace XChainSdk

open Tokens

/-! ### The field -/

def COMPRESSION_CODE_DEFLATE_RAW : String := "1"

def COMPRESSION_FIELD_INDEX : ℕ := 10

/-- `SDKCompressionError`: its code, message and details. -/
structure CompressionError where
  code : String
  message : String
  action : Option String := none
  deriving DecidableEq

/-- The action and the version are those of a `FILE` of version 0. -/
def isFileV0 (H : Host) (parts : List String) : Bool :=
  H.toUpperCase (parts.headD "") == "FILE" && parts[1]? == some "0"

/-- `compressionFieldOf` -/
def compressionFieldOf (H : Host) (actionString : Js) : String :=
  match actionString with
  | .str s =>
    let parts := split '|' s
    if s = "" ∨ parts.length ≤ COMPRESSION_FIELD_INDEX then ""
    else if isFileV0 H parts then field COMPRESSION_FIELD_INDEX parts
    else ""
  | _ => ""

/-- `isCompressedAction` -/
def isCompressedAction (H : Host) (actionString : Js) : Bool :=
  compressionFieldOf H actionString == COMPRESSION_CODE_DEFLATE_RAW

/-- `withCompressionField` -/
def withCompressionField (H : Host) (actionString value : Js) : Except CompressionError String :=
  match actionString with
  | .str s =>
    if s = "" then .error ⟨"INVALID_ACTION", "Action string is required.", none⟩
    else
      let parts := split '|' s
      if isFileV0 H parts then
        .ok (join '|' (setField 2 COMPRESSION_FIELD_INDEX
          (if value.isNullish then "" else value.toText) parts))
      else .error ⟨"NOT_A_FILE_ACTION",
        "COMPRESSION is a FILE v0 field; refusing to set it on another action.",
        some (parts.headD "")⟩
  | _ => .error ⟨"INVALID_ACTION", "Action string is required.", none⟩

/-! ### The carrier -/

/-- `toleratedCompressedForm` -/
def toleratedCompressedForm (H : Host) (intended : Js) : Option String :=
  match intended with
  | .str s =>
    if compressionFieldOf H (.str s) ≠ "" then none
    else (withCompressionField H (.str s) (.str COMPRESSION_CODE_DEFLATE_RAW)).toOption
  | _ => none

/-- `carriedActionMatches` -/
def carriedActionMatches (H : Host) (carried intended : Js) : Bool :=
  match carried, intended with
  | .str c, .str s => c == s || toleratedCompressedForm H (.str s) == some c
  | _, _ => false

/-! ### The laws -/

/-- A text that names a `FILE` of version 0. -/
def IsFileAction (H : Host) (s : String) : Prop := isFileV0 H (split '|' s) = true

/-- The text has no empty field at its end. -/
def IsTrimmed (s : String) : Prop := trimTrailing 2 (split '|' s) = split '|' s

instance (H : Host) (s : String) : Decidable (IsFileAction H s) :=
  inferInstanceAs (Decidable (_ = true))

instance (s : String) : Decidable (IsTrimmed s) := inferInstanceAs (Decidable (_ = _))

variable {H : Host} {s t v : String}

theorem IsFileAction.ne_empty (h : IsFileAction H s) : s ≠ "" := by
  rintro rfl
  have hparts : split '|' "" = [""] := by decide
  simp [IsFileAction, isFileV0, hparts] at h

theorem isFileV0_length {parts : List String} (h : isFileV0 H parts = true) : 2 ≤ parts.length := by
  simp only [isFileV0, Bool.and_eq_true, beq_iff_eq] at h
  obtain ⟨hlt, -⟩ := List.getElem?_eq_some_iff.1 h.2
  omega

/-- Whether it is a `FILE` is told by the first two fields. -/
theorem isFileV0_congr {parts parts' : List String} (h : 2 ≤ parts.length)
    (h' : 2 ≤ parts'.length) (h0 : field 0 parts = field 0 parts')
    (h1 : field 1 parts = field 1 parts') : isFileV0 H parts = isFileV0 H parts' := by
  have hhead (l : List String) : l.headD "" = field 0 l := by cases l <;> rfl
  have hsecond {l : List String} (hl : 2 ≤ l.length) : l[1]? = some (field 1 l) := by
    rw [field, List.getD_eq_getElem?_getD, List.getElem?_eq_getElem (by omega), Option.getD_some]
  rw [isFileV0, isFileV0, hhead, hhead, hsecond h, hsecond h', h0, h1]

/-- What the writer makes of a `FILE`. -/
theorem withCompressionField_str (h : IsFileAction H s) (v : String) :
    withCompressionField H (.str s) (.str v) =
      .ok (join '|' (setField 2 COMPRESSION_FIELD_INDEX v (split '|' s))) := by
  have hfile : isFileV0 H (split '|' s) = true := h
  simp only [withCompressionField, h.ne_empty, if_false, hfile, if_true, Js.isNullish,
    Bool.false_eq_true, Js.toText_str]

theorem split_setField (hv : '|' ∉ v.toList) :
    split '|' (join '|' (setField 2 COMPRESSION_FIELD_INDEX v (split '|' s))) =
      setField 2 COMPRESSION_FIELD_INDEX v (split '|' s) := by
  refine split_join ?_ (free_setField hv (free_split '|' s))
  have hlen := @le_length_setField 2 COMPRESSION_FIELD_INDEX (by decide) v (split '|' s)
  intro hnil
  rw [hnil] at hlen
  exact absurd hlen (by decide)

theorem IsFileAction.set (h : IsFileAction H s) (hv : '|' ∉ v.toList) :
    IsFileAction H (join '|' (setField 2 COMPRESSION_FIELD_INDEX v (split '|' s))) := by
  rw [IsFileAction, split_setField hv, ← h]
  refine isFileV0_congr (le_length_setField (by decide) v _) (isFileV0_length h) ?_ ?_
  · rw [field_setField, if_neg (by decide)]
  · rw [field_setField, if_neg (by decide)]

/-- The reader reads the tenth field, present or not. -/
theorem compressionFieldOf_eq (h : IsFileAction H s) :
    compressionFieldOf H (.str s) = field COMPRESSION_FIELD_INDEX (split '|' s) := by
  have hfile : isFileV0 H (split '|' s) = true := h
  simp only [compressionFieldOf, h.ne_empty, false_or, hfile, if_true]
  split
  · next hshort =>
    rw [field, List.getD_eq_getElem?_getD, List.getElem?_eq_none hshort, Option.getD_none]
  · rfl

/-- Clearing the field of a text without it only drops empty fields at the end. -/
theorem withCompressionField_clear (h : IsFileAction H s) (htrim : IsTrimmed s)
    (hraw : compressionFieldOf H (.str s) = "") :
    withCompressionField H (.str s) (.str "") = .ok s := by
  rw [compressionFieldOf_eq h] at hraw
  have hself := @setField_field (split '|' s) 2 COMPRESSION_FIELD_INDEX (isFileV0_length h)
    (by decide)
  rw [hraw, htrim] at hself
  rw [withCompressionField_str h, hself, join_split]

/-- A rewrite is tolerated only of a `FILE` whose field is empty. -/
theorem toleratedCompressedForm_eq_some {c : String}
    (h : toleratedCompressedForm H (.str s) = some c) : IsFileAction H s ∧
      compressionFieldOf H (.str s) = "" ∧
      withCompressionField H (.str s) (.str COMPRESSION_CODE_DEFLATE_RAW) = .ok c := by
  simp only [toleratedCompressedForm] at h
  split at h
  · cases h
  · next hraw =>
    have hok : withCompressionField H (.str s) (.str COMPRESSION_CODE_DEFLATE_RAW) = .ok c := by
      cases hset : withCompressionField H (.str s) (.str COMPRESSION_CODE_DEFLATE_RAW) with
      | error e =>
        rw [hset] at h
        cases h
      | ok t =>
        rw [hset] at h
        exact congrArg Except.ok (Option.some.inj h)
    refine ⟨?_, not_not.1 hraw, hok⟩
    simp only [withCompressionField] at hok
    split at hok
    · cases hok
    · split at hok
      · next hfile => exact hfile
      · cases hok

/-- **The compression field of a `FILE` is a lens.**  What is set is read, every other field stays,
and clearing it restores the text that had none.  The carrier tolerates a text that is not the
submitted one only when the field was empty there and holds the code here. -/
theorem compressionField_lens (H : Host) :
    (∀ s v, IsFileAction H s → '|' ∉ v.toList →
      ∃ t, withCompressionField H (.str s) (.str v) = .ok t ∧ IsFileAction H t ∧
        compressionFieldOf H (.str t) = v ∧
        (∀ i, i ≠ COMPRESSION_FIELD_INDEX → field i (split '|' t) = field i (split '|' s)) ∧
        withCompressionField H (.str t) (.str "") = withCompressionField H (.str s) (.str "") ∧
        (IsTrimmed s → compressionFieldOf H (.str s) = "" →
          withCompressionField H (.str t) (.str "") = .ok s)) ∧
    ∀ carried intended, carriedActionMatches H carried intended = true → carried ≠ intended →
      ∃ c s, carried = .str c ∧ intended = .str s ∧ IsFileAction H s ∧ IsFileAction H c ∧
        compressionFieldOf H (.str s) = "" ∧
        compressionFieldOf H (.str c) = COMPRESSION_CODE_DEFLATE_RAW ∧
        ∀ i, i ≠ COMPRESSION_FIELD_INDEX → field i (split '|' c) = field i (split '|' s) := by
  have hset : ∀ s v, IsFileAction H s → '|' ∉ v.toList →
      ∃ t, withCompressionField H (.str s) (.str v) = .ok t ∧ IsFileAction H t ∧
        compressionFieldOf H (.str t) = v ∧
        (∀ i, i ≠ COMPRESSION_FIELD_INDEX → field i (split '|' t) = field i (split '|' s)) ∧
        withCompressionField H (.str t) (.str "") = withCompressionField H (.str s) (.str "") := by
    intro s v h hv
    refine ⟨_, withCompressionField_str h v, h.set hv, ?_, fun i hi => ?_, ?_⟩
    · rw [compressionFieldOf_eq (h.set hv), split_setField hv, field_setField, if_pos rfl]
    · rw [split_setField hv, field_setField, if_neg hi]
    · rw [withCompressionField_str (h.set hv), withCompressionField_str h, split_setField hv,
        setField_setField (by decide)]
  refine ⟨fun s v h hv => ?_, fun carried intended hmatch hne => ?_⟩
  · obtain ⟨t, ht, hfile, hread, hothers, hclear⟩ := hset s v h hv
    refine ⟨t, ht, hfile, hread, hothers, hclear, fun htrim hraw => ?_⟩
    rw [hclear, withCompressionField_clear h htrim hraw]
  · cases carried with
    | str c =>
      cases intended with
      | str s =>
        simp only [carriedActionMatches, Bool.or_eq_true, beq_iff_eq] at hmatch
        rcases hmatch with rfl | hform
        · exact absurd rfl hne
        · obtain ⟨h, hraw, hok⟩ := toleratedCompressedForm_eq_some hform
          obtain ⟨t, ht, hfile, hread, hothers, -⟩ :=
            hset s COMPRESSION_CODE_DEFLATE_RAW h (by decide)
          rw [hok] at ht
          cases ht
          exact ⟨c, s, rfl, rfl, h, hfile, hraw, hread, hothers⟩
      | _ => cases hmatch
    | _ => cases hmatch

theorem compressionField_lens_file :
    ∃ t, withCompressionField plainHost (.str "file|0|a.txt|text/plain") (.str "1") = .ok t ∧
      compressionFieldOf plainHost (.str t) = "1" ∧
      withCompressionField plainHost (.str t) (.str "") = .ok "file|0|a.txt|text/plain" := by
  obtain ⟨t, ht, -, hread, -, -, hclear⟩ := (compressionField_lens plainHost).1
    "file|0|a.txt|text/plain" "1" (by decide) (by decide)
  exact ⟨t, ht, hread, hclear (by decide) (by decide)⟩

end XChainSdk
