import Mathlib.Data.List.ReduceOption
import XChainSdk.Compaction.Resolvers
import XChainSdk.Lib.Checks
import XChainSdk.Protocol.NumberFields
import XChainSdk.Protocol.Serialization

/-!
# The version that an issuance is composed with

* `composeIssueVersion` : the version that the composer selects.
* `MayCreate` : the parameters whose format may create a token.
* `edits_of_not_mayCreate` : **other parameters are composed with a format that only edits**.
-/

namespace XChainSdk

open Js

variable (H : Host) (M : MathJs)

/-- One leg of `normalizeLegs`. -/
def normalizeLeg : Js → Except ComposeError Js
  | .obj fs => do
    let fields : Dict String Js :=
      fs.foldl (fun fields e => fields.set (camelToUpperSnake H e.1) e.2) .empty
    return .obj (← setNumberFormats M fields).entries
  | leg => .ok leg

/-- `normalizeLegs` -/
def normalizeLegs (fields : Dict String Js) : Except ComposeError (Dict String Js) :=
  match fields.get? LEGS_FIELD with
  | some (.arr legs) => do return fields.set LEGS_FIELD (.arr (← legs.mapM (normalizeLeg H M)))
  | _ => .ok fields

/-- `applyActionVersion`: a version of the request stands in for one of the fields. -/
def foldVersion (fields : Dict String Js) (version : Js) : Dict String Js :=
  if !isPopulated (member fields.entries "VERSION") && isPopulated version then
    fields.set "VERSION" version
  else fields

/-- The version that `composeActionString` selects for an `ISSUE`; the validator, which refuses or
lets pass and changes nothing, is left out. -/
def composeIssueVersion (params : Dict String Js) (version : Js) : Except ComposeError ℕ := do
  let fields ← normalizeLegs H M (normalizeFields H params)
  let fields ← setNumberFormats M (foldVersion fields version)
  let explicitVersion := member fields.entries "VERSION"
  let selected ← (if isPopulated explicitVersion then
      select "ISSUE" (fields.erase "VERSION").entries explicitVersion
    else select "ISSUE" fields.entries .undefined).mapError .format
  return selected.version

/-- The version that the caller names. -/
def namedVersion (params : Dict String Js) (version : Js) : Js :=
  member (foldVersion (normalizeFields H params) version).entries "VERSION"

/-- The fields that only the editing formats have. -/
def EDIT_ONLY_FIELDS : List String :=
  ["CONTROLLER", "ACTION_CLASS", "COOLDOWN_BLOCKS", "UNBIND", "BRIDGE_CHAINS", "MIN_DEPTH",
    "LOCK_BRIDGE"]

/-- The parameters may be composed with a format that creates a token: such a format is named, or
none is and no field needs one that edits. -/
def MayCreate (params : Dict String Js) (version : Js) : Prop :=
  if isPopulated (namedVersion H params version) then
    ∃ n ≤ 5, (canonicalVersion (namedVersion H params version)).bind JsNum.safeNat? = some n
  else ∀ field ∈ EDIT_ONLY_FIELDS, ¬isPopulated (member (normalizeFields H params).entries field)

variable {H M} {params : Dict String Js} {version : Js} {fields : Dict String Js}

theorem member_entries (fields : Dict String Js) (name : String) :
    member fields.entries name = (fields.get? name).getD .undefined := rfl

theorem member_normalizeLegs {out : Dict String Js} (h : normalizeLegs H M fields = .ok out)
    {name : String} (hname : name ≠ LEGS_FIELD) :
    member out.entries name = member fields.entries name := by
  rw [normalizeLegs] at h
  split at h
  · rename_i legs _
    cases hlegs : legs.mapM (normalizeLeg H M) with
    | error e =>
      rw [hlegs] at h
      cases h
    | ok legs' =>
      rw [hlegs] at h
      cases h
      rw [member_entries, member_entries, Dict.get?_set, if_neg hname]
  · cases h
    rfl

/-- Rewriting numbers leaves a populated value populated. -/
theorem isPopulated_numberFormat {name : String} {value v : Js}
    (h : numberFormat M name value = .ok v) (hv : isPopulated value = true) :
    isPopulated v = true := by
  rw [numberFormat] at h
  split_ifs at h
  · cases h
    exact hv
  · split at h
    · cases h
    · rename_i x _
      cases h
      exact bne_iff_ne.2 x.toFixedText_ne_empty

theorem isPopulated_setNumberFormats {out : Dict String Js} (h : setNumberFormats M fields = .ok out)
    {name : String} (hv : isPopulated (member fields.entries name) = true) :
    isPopulated (member out.entries name) = true := by
  obtain ⟨hkeys, hnames, hothers⟩ := foldlM_formatField (by decide) h
  by_cases hname : name ∈ NUMBER_FIELDS
  · cases hget : fields.get? name with
    | none =>
      rw [member_entries, hget] at hv
      cases hv
    | some value =>
      obtain ⟨v, hformat, hout⟩ := hnames name hname value hget
      rw [member_entries, hget] at hv
      rw [member_entries, hout]
      exact isPopulated_numberFormat hformat hv
  · rw [member_entries, hothers name hname]
    exact hv

theorem member_version_setNumberFormats {out : Dict String Js}
    (h : setNumberFormats M fields = .ok out) :
    member out.entries "VERSION" = member fields.entries "VERSION" := by
  obtain ⟨-, -, hothers⟩ := foldlM_formatField (by decide) h
  rw [member_entries, member_entries, hothers "VERSION" (by decide)]

/-! ### What is selected -/

theorem getFormatFields_of_formatOf {action : String} {ver : ℕ} {slots : List Slot}
    {group : Option RepeatedGroup} (h : formatOf action ver = .ok (slots, group)) :
    getFormatFields action ver = some slots := by
  rw [formatOf] at h
  split at h
  · cases h
  · split at h
    · cases h
      assumption
    · cases h

theorem versionCandidate_some {action : String} {ver : ℕ} {fs : Fields} {populated : List String}
    {legs : Option (List Fields)} {sel : Selected}
    (h : versionCandidate action ver fs populated legs = .ok (some sel)) :
    sel.version = ver ∧ ∃ slots, getFormatFields action ver = some slots ∧
      ∀ f ∈ populated, f ∈ userSlots slots := by
  by_cases hpin : ((pinOnlyVersions.lookup action).getD []).contains ver = true
  · rw [versionCandidate, if_pos hpin] at h
    cases h
  rw [versionCandidate, if_neg hpin] at h
  cases hformat : formatOf action ver with
  | error e =>
    rw [hformat] at h
    cases h
  | ok entry =>
    obtain ⟨slots, group⟩ := entry
    rw [hformat] at h
    simp only [bind, Except.bind, pure, Except.pure] at h
    split_ifs at h with hgroup hall hlegs
    · cases h
    · cases h
    · cases h
    cases hlength : estimateLength action ver fs with
    | error e =>
      rw [hlength] at h
      cases h
    | ok n =>
      rw [hlength] at h
      cases h
      refine ⟨rfl, slots, getFormatFields_of_formatOf hformat, fun f hf => ?_⟩
      have hin : ∀ x ∈ populated, x ∈ userSlots slots := by simpa using hall
      exact hin f hf

/-- No format that creates a token has a slot for a field of the editing formats. -/
theorem notMem_userSlots_of_creates {ver : ℕ} (hver : ver ≤ 5) {slots : List Slot}
    (hslots : getFormatFields "ISSUE" ver = some slots) {field : String}
    (hfield : field ∈ EDIT_ONLY_FIELDS) : field ∉ userSlots slots := by
  have hall : ∀ v < 6, ∀ f ∈ EDIT_ONLY_FIELDS,
      f ∉ userSlots ((getFormatFields "ISSUE" v).getD []) := by decide
  have h := hall ver (by omega) field hfield
  rwa [hslots] at h

/-- Every version of an `ISSUE` is one of eight. -/
theorem version_le {versions : List (ℕ × List Slot)} (hversions : formats.lookup "ISSUE" = some versions)
    {entry : ℕ × List Slot} (h : entry ∈ versions) : entry.1 ≤ 7 := by
  have hall : ∀ e ∈ (formats.lookup "ISSUE").getD [], e.1 ≤ 7 := by decide
  rw [hversions] at hall
  exact hall entry h

/-- What is selected without a version comes from a candidate. -/
theorem exists_candidate_of_select {fs : Fields} {sel : Selected}
    (h : select "ISSUE" fs .undefined = .ok sel) :
    ∃ ver ≤ 7, ∃ legs, versionCandidate "ISSUE" ver fs
      ((getPopulatedFields fs).filter (· != LEGS_FIELD)) legs = .ok (some sel) := by
  rw [select] at h
  cases hversions : formats.lookup "ISSUE" with
  | none =>
    rw [hversions] at h
    cases h
  | some versions =>
    rw [hversions] at h
    simp only at h
    rw [if_neg (by decide)] at h
    cases hlegs : getLegs fs with
    | error e =>
      rw [hlegs] at h
      cases h
    | ok legs =>
      rw [hlegs] at h
      simp only [bind, Except.bind] at h
      split at h
      · cases h
      · rename_i candidates hcandidates
        split at h
        · cases h
        · rename_i first hfirst
          cases h
          have hmem := List.mem_of_mem_head? (Option.mem_def.2 hfirst)
          rw [List.mem_mergeSort, List.reduceOption_mem_iff] at hmem
          obtain ⟨entry, hentry, hcandidate⟩ := Checks.exists_of_mem_mapM hcandidates hmem
          exact ⟨entry.1, version_le hversions hentry, legs, hcandidate⟩

/-- What is selected by a version is that version. -/
theorem version_of_selectPinned {fs : Fields} {explicit : Js} {sel : Selected}
    (hne : explicit.isNullish = false) (h : select "ISSUE" fs explicit = .ok sel) :
    (canonicalVersion explicit).bind JsNum.safeNat? = some sel.version ∧ sel.version ≤ 7 := by
  rw [select] at h
  cases hversions : formats.lookup "ISSUE" with
  | none =>
    rw [hversions] at h
    cases h
  | some versions =>
    rw [hversions] at h
    simp only [hne, Bool.not_false, if_true] at h
    rw [selectPinned] at h
    cases hcanonical : canonicalVersion explicit with
    | none =>
      simp only [hcanonical] at h
      split at h <;> cases h
    | some v =>
      simp only [hcanonical, bind, Except.bind, pure, Except.pure] at h
      split at h
      · rename_i ver slots hfound
        obtain ⟨n, hn, hlookup⟩ := Option.bind_eq_some_iff.1 hfound
        obtain ⟨slots', hslots', hpair⟩ := Option.map_eq_some_iff.1 hlookup
        cases hpair
        split_ifs at h
        cases hlength : estimateLength "ISSUE" ver fs with
        | error e =>
          rw [hlength] at h
          cases h
        | ok length =>
          rw [hlength] at h
          cases h
          exact ⟨hn, version_le hversions (Loop.mem_of_lookup hslots')⟩
      · cases h

/-- **Parameters that may not create a token are composed with a format that only edits.** -/
theorem edits_of_not_mayCreate {v : ℕ} (h : composeIssueVersion H M params version = .ok v)
    (hmay : ¬MayCreate H params version) : v = 6 ∨ v = 7 := by
  rw [composeIssueVersion] at h
  obtain ⟨legged, hlegged, h⟩ := Checks.bind_eq_ok.1 h
  obtain ⟨fields, hfields, h⟩ := Checks.bind_eq_ok.1 h
  obtain ⟨sel, hsel, hv⟩ := Checks.bind_eq_ok.1 h
  cases hv
  -- the version that is composed is the one that the caller names
  have hnamed : member fields.entries "VERSION" = namedVersion H params version := by
    rw [member_version_setNumberFormats hfields, namedVersion, foldVersion, foldVersion,
      member_normalizeLegs hlegged (by decide)]
    split_ifs
    · rw [member_entries, member_entries, Dict.get?_set, Dict.get?_set, if_pos rfl, if_pos rfl]
    · exact member_normalizeLegs hlegged (by decide)
  rw [hnamed] at hsel
  rw [MayCreate] at hmay
  split_ifs at hsel hmay with hpopulated
  · have hnot : (namedVersion H params version).isNullish = false := by
      cases hx : namedVersion H params version <;> rw [hx] at hpopulated <;>
        first | rfl | cases hpopulated
    obtain ⟨hcanonical, hle⟩ := version_of_selectPinned hnot (Checks.mapError_eq_ok.1 hsel)
    have hgt : ¬sel.version ≤ 5 := fun hle => hmay ⟨_, hle, hcanonical⟩
    omega
  · obtain ⟨field, hfield, hpop⟩ : ∃ field ∈ EDIT_ONLY_FIELDS,
        isPopulated (member (normalizeFields H params).entries field) = true := by
      simpa using hmay
    obtain ⟨ver, hle, legs, hcandidate⟩ :=
      exists_candidate_of_select (Checks.mapError_eq_ok.1 hsel)
    obtain ⟨hver, slots, hslots, hin⟩ := versionCandidate_some hcandidate
    have hne : ∀ f ∈ EDIT_ONLY_FIELDS, f ≠ "VERSION" ∧ f ≠ LEGS_FIELD := by decide
    have hfolded : isPopulated (member (foldVersion legged version).entries field) = true := by
      rw [foldVersion]
      split_ifs
      · rw [member_entries, Dict.get?_set, if_neg (hne field hfield).1, ← member_entries,
          member_normalizeLegs hlegged (hne field hfield).2]
        exact hpop
      · rw [member_normalizeLegs hlegged (hne field hfield).2]
        exact hpop
    have hpopulated := isPopulated_setNumberFormats hfields hfolded
    have hkey : field ∈ fields.entries.map Prod.fst := by
      refine Dict.mem_keys.2 ?_
      cases hget : fields.get? field with
      | none =>
        rw [member_entries, hget] at hpopulated
        cases hpopulated
      | some value => exact ⟨value, rfl⟩
    have hgt : ¬ver ≤ 5 := fun hle5 =>
      notMem_userSlots_of_creates hle5 hslots hfield
        (hin field (mem_populatedFields.2 ⟨hkey, hpopulated, (hne field hfield).2⟩))
    omega

end XChainSdk
