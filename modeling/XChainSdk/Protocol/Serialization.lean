import Mathlib.Data.List.ReduceOption
import XChainSdk.Lib.Checks
import XChainSdk.Protocol.FormatSelector

/-!
# What the selector chooses and writes

* `select_of_least` : **the candidate that is shorter than every other one is chosen**.
* `serialize_flat` : the string of a format that repeats nothing.
-/

namespace XChainSdk

open Js

/-! ### The shortest candidate -/

theorem shorterFirst_trans (a b c : Selected) (hab : shorterFirst a b = true)
    (hbc : shorterFirst b c = true) : shorterFirst a c = true := by
  simp only [shorterFirst] at hab hbc ⊢
  split_ifs at hab hbc ⊢ <;> simp_all <;> omega

theorem shorterFirst_total (a b : Selected) : (shorterFirst a b || shorterFirst b a) = true := by
  simp only [shorterFirst]
  split_ifs <;> simp_all <;> omega

/-- A candidate that no other precedes is the first of the sorted ones. -/
theorem head?_mergeSort_of_least {candidates : List Selected} {a : Selected} (ha : a ∈ candidates)
    (hleast : ∀ b ∈ candidates, shorterFirst b a = true → b = a) :
    (candidates.mergeSort shorterFirst).head? = some a := by
  have hsorted := List.pairwise_mergeSort shorterFirst_trans shorterFirst_total candidates
  have hmem : ∀ b, b ∈ candidates.mergeSort shorterFirst ↔ b ∈ candidates := fun b =>
    List.mem_mergeSort
  cases hsort : candidates.mergeSort shorterFirst with
  | nil =>
    rw [← hmem, hsort] at ha
    cases ha
  | cons b rest =>
    rw [hsort] at hsorted hmem
    have hb : b ∈ candidates := (hmem b).1 List.mem_cons_self
    refine congrArg some (hleast b hb ?_)
    rcases List.mem_cons.1 ((hmem a).2 ha) with rfl | hrest
    · exact (or_self_iff.1 (Bool.or_eq_true _ _ ▸ shorterFirst_total a a))
    · exact List.rel_of_pairwise_cons hsorted hrest

/-- The candidate that no other precedes is chosen. -/
theorem select_of_least {action : String} {versions : List (ℕ × List Slot)} {fields : Fields}
    {legs : Option (List Fields)} {candidates : List (Option Selected)} {a : Selected}
    (hversions : formats.lookup action = some versions) (hlegs : getLegs fields = .ok legs)
    (hcandidates : versions.mapM (fun entry => versionCandidate action entry.1 fields
      ((getPopulatedFields fields).filter (· != LEGS_FIELD)) legs) = .ok candidates)
    (ha : some a ∈ candidates)
    (hleast : ∀ b, some b ∈ candidates → shorterFirst b a = true → b = a) :
    select action fields .undefined = .ok a := by
  have hhead := head?_mergeSort_of_least (List.reduceOption_mem_iff.2 ha) fun b hb =>
    hleast b (List.reduceOption_mem_iff.1 hb)
  simp only [select, hversions]
  rw [if_neg (by decide), hlegs]
  simp only [bind, Except.bind, hcandidates, hhead]
  rfl

/-! ### Flat formats -/

/-- Without a list of legs, a format that repeats nothing is written from the fields. -/
theorem serialize_flat {action : String} {version : ℕ} {formatFields : List Slot} {fields : Fields}
    (hformat : formatOf action version = .ok (formatFields, none)) (hlegs : getLegs fields = .ok none) :
    serialize action version fields = .ok (serializeFlat action version formatFields fields) := by
  rw [serialize, hformat]
  simp only [bind, Except.bind, hlegs]
  rfl

theorem mem_populatedFields {fields : Fields} {field : String} :
    field ∈ (getPopulatedFields fields).filter (· != LEGS_FIELD) ↔
      field ∈ fields.map Prod.fst ∧ isPopulated (member fields field) = true ∧ field ≠ LEGS_FIELD := by
  rw [List.mem_filter, getPopulatedFields, List.mem_filter, bne_iff_ne, and_assoc]

/-- Without legs, a format that repeats nothing is a candidate when it has the populated slots. -/
theorem versionCandidate_flat {action : String} {version : ℕ} {formatFields : List Slot}
    {fields : Fields} (populatedFields : List String)
    (hpin : ((pinOnlyVersions.lookup action).getD []).contains version = false)
    (hformat : formatOf action version = .ok (formatFields, none)) (hlegs : getLegs fields = .ok none) :
    versionCandidate action version fields populatedFields none =
      .ok (if populatedFields.all ((userSlots formatFields).contains ·) then
        some ⟨version, formatFields, flatLength action version formatFields fields⟩ else none) := by
  have hlength : estimateLength action version fields =
      .ok (flatLength action version formatFields fields) := by
    simp only [estimateLength, hformat, hlegs, bind, Except.bind]
    rfl
  rw [versionCandidate, hpin]
  simp only [hformat, hlength, bind, Except.bind]
  cases populatedFields.all ((userSlots formatFields).contains ·) <;> rfl

/-! ### Lengths -/

theorem utf16Length_append (s t : String) :
    utf16Length (s ++ t) = utf16Length s + utf16Length t := by
  simp [utf16Length]

theorem utf16Length_intercalate (texts : List String) : utf16Length (",".intercalate texts) =
    (texts.map utf16Length).sum + (texts.length - 1) := by
  have hcomma : utf16Length "," = 1 := by decide
  induction texts with
  | nil => rfl
  | cons t texts ih =>
    cases texts with
    | nil => simp
    | cons u texts =>
      rw [String.intercalate_cons_of_ne_nil (List.cons_ne_nil u texts), utf16Length_append,
        utf16Length_append, ih, hcomma]
      simp only [List.map_cons, List.sum_cons, List.length_cons]
      omega

/-- The bytes of segments behind an action, each with the pipe in front of it. -/
def segmentBytes (segments : List String) : ℕ :=
  (segments.map fun segment => 1 + segment.utf8ByteSize).sum

theorem utf8ByteSize_join_cons (a : String) (segments : List String) :
    (Tokens.join '|' (a :: segments)).utf8ByteSize = a.utf8ByteSize + segmentBytes segments := by
  induction segments generalizing a with
  | nil => simp [segmentBytes]
  | cons b segments ih =>
    have hpipe : (String.singleton '|').utf8ByteSize = 1 := by decide
    rw [Tokens.join_cons a (List.cons_ne_nil b segments), String.utf8ByteSize_append,
      String.utf8ByteSize_append, ih, hpipe]
    simp [segmentBytes, Nat.add_assoc]

end XChainSdk
