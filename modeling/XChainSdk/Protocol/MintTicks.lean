import XChainSdk.Js.Value
import XChainSdk.Lib.Loop
import XChainSdk.Lib.Tally

/-!
# Mints that name one token

A batch may mint a token once.  The client counts by the text of the tick, the arbiter by the token
that the text resolves to.

* `mintTickKey`, `maxMintsPerDistinctTick` : the count of the client.
* `mostMints` : the count of the arbiter, for a resolution of names and `^id` references.
* `mintTicks_bound` : **the client's count is never the larger one, and is the arbiter's when it is
  not approximate and the resolution keeps what it counts apart**; it depends neither on the order
  of the mints nor on the case of the names.
-/

namespace XChainSdk

open Js

/-- Distinctness key of a tick: `UNRESOLVED_TICK_KEY`, or a text. -/
inductive TickKey where
  | unresolved
  | text (s : String)
  deriving DecidableEq

/-- The tick as text: `''` when there is none. -/
def tickText (tick : Js) : String := if tick.isNullish then "" else trim tick.toText

/-- The text leads with `^`. -/
def isCaret (s : String) : Bool := s.toList.head? == some '^'

/-- `mintTickKey`: the key, and whether the tick may be an alias. -/
def mintTickKey (H : Host) (tick : Js) : TickKey × Bool :=
  let t := tickText tick
  if t = "" then (.unresolved, false)
  else if isCaret t then (.text t, true)
  else (.text (H.toLowerCase t), false)

/-- The counters of the loop. -/
structure MintCounts where
  counts : List (TickKey × ℕ) := []
  max : ℕ := 0
  carets : ℕ := 0
  plain : ℕ := 0

/-- The body of the loop. -/
def MintCounts.add (H : Host) (s : MintCounts) (tick : Js) : MintCounts :=
  let (key, aliasable) := mintTickKey H tick
  let known := (s.counts.lookup key).isSome
  let count := (s.counts.lookup key).getD 0 + 1
  { counts := Loop.setEntry s.counts key count
    max := if s.max < count then count else s.max
    carets := if !known && aliasable then s.carets + 1 else s.carets
    plain := if !known && !aliasable then s.plain + 1 else s.plain }

/-- What `maxMintsPerDistinctTick` returns. -/
structure MintMax where
  max : ℕ
  approximate : Bool
  deriving DecidableEq

/-- `maxMintsPerDistinctTick` -/
def maxMintsPerDistinctTick (H : Host) (ticks : List Js) : MintMax :=
  let s := ticks.foldl (MintCounts.add H) {}
  ⟨s.max, decide (0 < s.carets) && decide (0 < s.plain)⟩

section Counts

variable {H : Host} {ticks : List Js} {tick : Js}

/-- Lower case brings in no leading `^`. -/
def CaretKept (H : Host) : Prop := ∀ s, isCaret (H.toLowerCase s) = true → isCaret s = true

theorem mintTickKey_empty (h : tickText tick = "") :
    mintTickKey H tick = (.unresolved, false) := if_pos h

theorem mintTickKey_caret (h : isCaret (tickText tick) = true) :
    mintTickKey H tick = (.text (tickText tick), true) := by
  have hne : tickText tick ≠ "" := fun hempty => by
    rw [hempty] at h
    cases h
  exact (if_neg hne).trans (if_pos h)

theorem mintTickKey_name (hne : tickText tick ≠ "") (h : ¬isCaret (tickText tick) = true) :
    mintTickKey H tick = (.text (H.toLowerCase (tickText tick)), false) :=
  (if_neg hne).trans (if_neg h)

theorem mintTickKey_aliasable : (mintTickKey H tick).2 = isCaret (tickText tick) := by
  by_cases hc : isCaret (tickText tick) = true
  · rw [mintTickKey_caret hc, hc]
  · rw [Bool.not_eq_true] at hc
    by_cases hempty : tickText tick = ""
    · rw [mintTickKey_empty hempty, hc]
    · rw [mintTickKey_name hempty (by simp [hc]), hc]

/-- The key of a reference leads with `^`, and no other key does. -/
theorem isCaret_of_key (hcaret : CaretKept H) {t : String}
    (h : (mintTickKey H tick).1 = .text t) : isCaret t = (mintTickKey H tick).2 := by
  rw [mintTickKey_aliasable]
  by_cases hc : isCaret (tickText tick) = true
  · rw [mintTickKey_caret hc] at h
    cases h
    rfl
  · by_cases hempty : tickText tick = ""
    · rw [mintTickKey_empty hempty] at h
      cases h
    · rw [mintTickKey_name hempty hc] at h
      cases h
      rw [Bool.eq_iff_iff]
      exact ⟨hcaret _, fun h => absurd h hc⟩

/-- Equal keys are both those of references, or neither is. -/
theorem aliasable_eq_of_key (hcaret : CaretKept H) {tick' : Js}
    (h : (mintTickKey H tick).1 = (mintTickKey H tick').1) :
    (mintTickKey H tick).2 = (mintTickKey H tick').2 := by
  cases hkey : (mintTickKey H tick).1 with
  | text t => rw [← isCaret_of_key hcaret hkey, ← isCaret_of_key hcaret (h ▸ hkey)]
  | unresolved =>
    have hplain : ∀ u : Js, (mintTickKey H u).1 = .unresolved → (mintTickKey H u).2 = false := by
      intro u hu
      by_cases hc : isCaret (tickText u) = true
      · rw [mintTickKey_caret hc] at hu
        cases hu
      · rw [mintTickKey_aliasable]
        exact Bool.eq_false_iff.2 hc
    rw [hplain _ hkey, hplain _ (h ▸ hkey)]

/-- What the counters say of the ticks that were read. -/
structure MintCounts.Says (H : Host) (ticks : List Js) (s : MintCounts) : Prop where
  known : ∀ key, (s.counts.lookup key).isSome = true ↔ key ∈ ticks.map fun t => (mintTickKey H t).1
  count : ∀ key, (s.counts.lookup key).getD 0 = (ticks.map fun t => (mintTickKey H t).1).count key
  max : s.max = Tally.largest (ticks.map fun t => (mintTickKey H t).1)
  carets : 0 < s.carets ↔ ∃ t ∈ ticks, (mintTickKey H t).2 = true
  plain : 0 < s.plain ↔ ∃ t ∈ ticks, (mintTickKey H t).2 = false

theorem MintCounts.says_new : MintCounts.Says H [] {} where
  known := by simp
  count := by simp
  max := rfl
  carets := by simp
  plain := by simp

/-- A counter that counts the first tick of every key of its kind. -/
theorem counter_step {n : ℕ} {b : Bool} {known : Bool} (hcaret : CaretKept H)
    (hknown : known = true ↔ (mintTickKey H tick).1 ∈ ticks.map fun t => (mintTickKey H t).1)
    (h : 0 < n ↔ ∃ t ∈ ticks, (mintTickKey H t).2 = b) :
    0 < (if !known && ((mintTickKey H tick).2 == b) then n + 1 else n) ↔
      ∃ t ∈ ticks ++ [tick], (mintTickKey H t).2 = b := by
  have hsplit : (∃ t ∈ ticks ++ [tick], (mintTickKey H t).2 = b) ↔
      (∃ t ∈ ticks, (mintTickKey H t).2 = b) ∨ (mintTickKey H tick).2 = b := by
    simp [or_and_right, exists_or]
  rw [hsplit, ← h]
  cases known with
  | false =>
    by_cases hb : (mintTickKey H tick).2 = b
    · simp [hb]
    · simp [hb]
  | true =>
    -- a tick with the same key was counted already
    obtain ⟨t, ht, hkey⟩ := List.mem_map.1 (hknown.1 rfl)
    have hsame := aliasable_eq_of_key hcaret hkey
    refine ⟨fun hn => .inl hn, fun hn => hn.elim id fun hb => h.2 ⟨t, ht, hsame.trans hb⟩⟩

theorem MintCounts.Says.add {s : MintCounts} (hcaret : CaretKept H) (h : s.Says H ticks) :
    (s.add H tick).Says H (ticks ++ [tick]) := by
  have hcounts : ∀ key, ((s.add H tick).counts.lookup key) =
      if key = (mintTickKey H tick).1 then some ((ticks.map fun t => (mintTickKey H t).1).count
        (mintTickKey H tick).1 + 1) else s.counts.lookup key := fun key => by
    rw [← h.count]
    exact Loop.lookup_setEntry ..
  have hknown := h.known (mintTickKey H tick).1
  constructor
  · intro key
    rw [hcounts, List.map_append, List.mem_append]
    split_ifs with hkey
    · simp [hkey]
    · rw [h.known]
      simp [hkey]
  · intro key
    rw [hcounts, List.map_append, List.count_append, List.map_singleton, List.count_singleton]
    by_cases hkey : key = (mintTickKey H tick).1
    · simp [hkey]
    · rw [if_neg hkey, h.count]
      simp [Ne.symm hkey]
  · rw [List.map_append, List.map_singleton, Tally.largest_append_singleton, ← h.max, ← h.count]
    have hmax : (s.add H tick).max =
        if s.max < (s.counts.lookup (mintTickKey H tick).1).getD 0 + 1 then
          (s.counts.lookup (mintTickKey H tick).1).getD 0 + 1 else s.max := rfl
    rw [hmax]
    split_ifs with hlt
    · exact (max_eq_right hlt.le).symm
    · exact (max_eq_left (Nat.le_of_not_lt hlt)).symm
  · have hcarets : (s.add H tick).carets =
        if !(s.counts.lookup (mintTickKey H tick).1).isSome && (mintTickKey H tick).2 then
          s.carets + 1 else s.carets := rfl
    rw [hcarets]
    simpa only [beq_true] using counter_step (b := true) hcaret hknown h.carets
  · have hplain : (s.add H tick).plain =
        if !(s.counts.lookup (mintTickKey H tick).1).isSome && !(mintTickKey H tick).2 then
          s.plain + 1 else s.plain := rfl
    rw [hplain]
    simpa only [beq_false] using counter_step (b := false) hcaret hknown h.plain

theorem says_counts (hcaret : CaretKept H) (ticks : List Js) :
    (ticks.foldl (MintCounts.add H) {}).Says H ticks :=
  Loop.foldl_inv (fun pre s => MintCounts.Says H pre s) MintCounts.says_new
    (fun _ _ _ h => h.add hcaret) ticks

/-- The keys of the ticks decide the count. -/
theorem maxMints_max (hcaret : CaretKept H) :
    (maxMintsPerDistinctTick H ticks).max =
      Tally.largest (ticks.map fun t => (mintTickKey H t).1) := (says_counts hcaret ticks).max

/-- The count is approximate when references stand beside names. -/
theorem maxMints_approximate (hcaret : CaretKept H) :
    (maxMintsPerDistinctTick H ticks).approximate = true ↔
      (∃ t ∈ ticks, (mintTickKey H t).2 = true) ∧ ∃ t ∈ ticks, (mintTickKey H t).2 = false := by
  have h := says_counts hcaret ticks
  rw [← h.carets, ← h.plain]
  simp [maxMintsPerDistinctTick]

/-- The keys decide the result, in any order. -/
theorem maxMints_congr (hcaret : CaretKept H) {ticks' : List Js}
    (h : (ticks'.map (mintTickKey H)).Perm (ticks.map (mintTickKey H))) :
    maxMintsPerDistinctTick H ticks' = maxMintsPerDistinctTick H ticks := by
  have hmax : (maxMintsPerDistinctTick H ticks').max = (maxMintsPerDistinctTick H ticks).max := by
    rw [maxMints_max hcaret, maxMints_max hcaret]
    exact Tally.largest_perm (by simpa [Function.comp_def] using h.map Prod.fst)
  have hkind : ∀ b, (∃ t ∈ ticks', (mintTickKey H t).2 = b) ↔ ∃ t ∈ ticks, (mintTickKey H t).2 = b := by
    intro b
    have hmem := (h.map Prod.snd).mem_iff (a := b)
    simpa only [List.map_map, List.mem_map, Function.comp_apply] using hmem
  have happrox : (maxMintsPerDistinctTick H ticks').approximate =
      (maxMintsPerDistinctTick H ticks).approximate := by
    rw [Bool.eq_iff_iff, maxMints_approximate hcaret, maxMints_approximate hcaret, hkind, hkind]
  cases hl : maxMintsPerDistinctTick H ticks'
  cases hr : maxMintsPerDistinctTick H ticks
  simp_all

/-! ### The count of the arbiter -/

/-- The tick without regard to case; a reference has no letters. -/
def SameTick (H : Host) (a b : Js) : Prop :=
  tickText a = tickText b ∨ (isCaret (tickText a) = false ∧ isCaret (tickText b) = false ∧
    tickText a ≠ "" ∧ tickText b ≠ "" ∧ H.toLowerCase (tickText a) = H.toLowerCase (tickText b))

instance (H : Host) (a b : Js) : Decidable (SameTick H a b) := inferInstanceAs (Decidable (_ ∨ _))

theorem mintTickKey_eq_of_same {a b : Js} (h : SameTick H a b) :
    mintTickKey H a = mintTickKey H b := by
  rcases h with h | ⟨ha, hb, hane, hbne, hlow⟩
  · rw [mintTickKey, mintTickKey, h]
  · rw [mintTickKey_name hane (by simp [ha]), mintTickKey_name hbne (by simp [hb]), hlow]

theorem same_of_mintTickKey_eq (hcaret : CaretKept H) {a b : Js}
    (h : (mintTickKey H a).1 = (mintTickKey H b).1) : SameTick H a b := by
  have hkind := aliasable_eq_of_key hcaret h
  rw [mintTickKey_aliasable, mintTickKey_aliasable] at hkind
  by_cases hc : isCaret (tickText a) = true
  · rw [mintTickKey_caret hc, mintTickKey_caret (hkind ▸ hc)] at h
    exact .inl (TickKey.text.inj h)
  · have hc' : ¬isCaret (tickText b) = true := hkind ▸ hc
    by_cases ha : tickText a = ""
    · by_cases hb : tickText b = ""
      · exact .inl (ha.trans hb.symm)
      · rw [mintTickKey_empty ha, mintTickKey_name hb hc'] at h
        cases h
    · by_cases hb : tickText b = ""
      · rw [mintTickKey_name ha hc, mintTickKey_empty hb] at h
        cases h
      · rw [mintTickKey_name ha hc, mintTickKey_name hb hc'] at h
        exact .inr ⟨Bool.eq_false_iff.2 hc, Bool.eq_false_iff.2 hc', ha, hb, TickKey.text.inj h⟩

section Resolution

variable {τ : Type*} [DecidableEq τ] {resolve : String → τ}

/-- The resolution of names does not depend on their case. -/
def CaseInsensitive (H : Host) (resolve : String → τ) : Prop :=
  ∀ a b, isCaret a = false → isCaret b = false → H.toLowerCase a = H.toLowerCase b →
    resolve a = resolve b

/-- The resolution keeps the names of a list apart, and its references. -/
def KeepsApart (H : Host) (resolve : String → τ) (ticks : List Js) : Prop :=
  ∀ a ∈ ticks, ∀ b ∈ ticks, isCaret (tickText a) = isCaret (tickText b) →
    resolve (tickText a) = resolve (tickText b) → SameTick H a b

instance (H : Host) (ticks : List Js) : Decidable (KeepsApart H resolve ticks) :=
  inferInstanceAs (Decidable (∀ a ∈ ticks, ∀ b ∈ ticks, _ → _ → SameTick H a b))

/-- The largest number of mints of one token. -/
def mostMints (resolve : String → τ) (ticks : List Js) : ℕ :=
  Tally.largest (ticks.map fun t => resolve (tickText t))

/-- In a count that is not approximate all ticks are references, or none is. -/
theorem kind_eq_of_exact (hcaret : CaretKept H)
    (h : (maxMintsPerDistinctTick H ticks).approximate = false) {a b : Js} (ha : a ∈ ticks)
    (hb : b ∈ ticks) : isCaret (tickText a) = isCaret (tickText b) := by
  have hmixed : ¬((∃ t ∈ ticks, (mintTickKey H t).2 = true) ∧
      ∃ t ∈ ticks, (mintTickKey H t).2 = false) := by
    rw [← maxMints_approximate hcaret, h]
    exact Bool.false_ne_true
  by_contra hne
  cases hca : isCaret (tickText a) with
  | true => exact hmixed ⟨⟨a, ha, by rw [mintTickKey_aliasable, hca]⟩,
      ⟨b, hb, by rw [mintTickKey_aliasable]; cases hcb : isCaret (tickText b) <;> simp_all⟩⟩
  | false => exact hmixed ⟨⟨b, hb, by
      rw [mintTickKey_aliasable]; cases hcb : isCaret (tickText b) <;> simp_all⟩,
      ⟨a, ha, by rw [mintTickKey_aliasable, hca]⟩⟩

omit [DecidableEq τ] in
theorem resolve_eq_of_same (hcase : CaseInsensitive H resolve) {a b : Js} (h : SameTick H a b) :
    resolve (tickText a) = resolve (tickText b) := by
  rcases h with h | ⟨ha, hb, -, -, hlow⟩
  · rw [h]
  · exact hcase _ _ ha hb hlow

/-- **The client's count**: at most the arbiter's, and equal to it when it is not approximate and
the resolution keeps what it counts apart; the order of the mints and the case of the names do not
matter. -/
theorem mintTicks_bound (H : Host) (hcaret : CaretKept H) (resolve : String → τ)
    (hcase : CaseInsensitive H resolve) (ticks : List Js) :
    (maxMintsPerDistinctTick H ticks).max ≤ mostMints resolve ticks ∧
    ((maxMintsPerDistinctTick H ticks).approximate = false → KeepsApart H resolve ticks →
      (maxMintsPerDistinctTick H ticks).max = mostMints resolve ticks) ∧
    (∀ ticks', ticks'.Perm ticks →
      maxMintsPerDistinctTick H ticks' = maxMintsPerDistinctTick H ticks) ∧
    ∀ ticks', List.Forall₂ (SameTick H) ticks' ticks →
      maxMintsPerDistinctTick H ticks' = maxMintsPerDistinctTick H ticks := by
  refine ⟨?_, fun happrox hapart => ?_, fun ticks' hperm => ?_, fun ticks' hsame => ?_⟩
  · rw [maxMints_max hcaret]
    exact Tally.largest_map_le fun a _ b _ h =>
      resolve_eq_of_same hcase (same_of_mintTickKey_eq hcaret h)
  · rw [maxMints_max hcaret]
    refine le_antisymm (Tally.largest_map_le fun a _ b _ h =>
      resolve_eq_of_same hcase (same_of_mintTickKey_eq hcaret h)) ?_
    refine Tally.largest_map_le fun a ha b hb h => ?_
    rw [mintTickKey_eq_of_same (hapart a ha b hb (kind_eq_of_exact hcaret happrox ha hb) h)]
  · exact maxMints_congr hcaret (hperm.map _)
  · refine maxMints_congr hcaret (List.Perm.of_eq ?_)
    rw [← List.forall₂_eq_eq_eq, List.forall₂_map_left_iff, List.forall₂_map_right_iff]
    exact hsame.imp fun _ _ => mintTickKey_eq_of_same

end Resolution

end Counts

theorem caretKept_plainHost : CaretKept plainHost := by
  intro s h
  have hlower : (plainHost.toLowerCase s).toList = s.toList.map Char.toLower :=
    String.toList_ofList
  rw [isCaret, hlower] at h
  rw [isCaret]
  cases hs : s.toList with
  | nil => simp [hs] at h
  | cons c cs =>
    rw [hs] at h
    have hc : c.toLower = '^' := by simpa using h
    have hsame : c = '^' := by
      rcases toLower_eq_or_isAlpha c with hlow | hlow
      · rw [← hlow, hc]
      · rw [hc] at hlow
        cases hlow
    simp [hsame]

/-- The tokens that some ticks name: `JDOG` and `^614` are one. -/
def sampleToken (t : String) : Option ℕ :=
  match asciiLower t with
  | "jdog" | "^614" => some 614
  | "cat" => some 7
  | _ => none

theorem mintTicks_bound_sample :
    maxMintsPerDistinctTick plainHost [str "JDOG", str "jdog", str "^614"] = ⟨2, true⟩ ∧
      mostMints sampleToken [str "JDOG", str "jdog", str "^614"] = 3 ∧
      (maxMintsPerDistinctTick plainHost [str "JDOG", str "Cat", str "jdog"]).max =
        mostMints sampleToken [str "Cat", str "JDOG", str "jdog"] := by
  have hcase : CaseInsensitive plainHost sampleToken := by
    intro a b _ _ h
    have hlow : asciiLower a = asciiLower b := h
    rw [sampleToken, sampleToken, hlow]
  have hbound := mintTicks_bound plainHost caretKept_plainHost sampleToken hcase
    [str "Cat", str "JDOG", str "jdog"]
  refine ⟨by decide +kernel, by decide +kernel, ?_⟩
  rw [hbound.2.2.1 [str "JDOG", str "Cat", str "jdog"] (List.Perm.swap _ _ _)]
  exact hbound.2.1 (by decide +kernel) (by decide +kernel)

/-- Two names of tokens that do not exist are one bucket to the arbiter, and two to the client. -/
theorem mintTicks_unresolved :
    CaseInsensitive plainHost sampleToken ∧
      maxMintsPerDistinctTick plainHost [str "NEW", str "OTHER"] = ⟨1, false⟩ ∧
      mostMints sampleToken [str "NEW", str "OTHER"] = 2 := by
  refine ⟨fun a b _ _ h => ?_, by decide +kernel, by decide +kernel⟩
  have hlow : asciiLower a = asciiLower b := h
  rw [sampleToken, sampleToken, hlow]

end XChainSdk
