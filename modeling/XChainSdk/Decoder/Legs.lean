import XChainSdk.Decoder.Reading

/-!
# The legs of a format

* `Repeats` : a list of slots with a block that stands twice.
* `findRepeat_longest`, `findRepeat_none` : the search finds the longest such block, or there is none.
* `getRepeatedGroup_decomposes` : **a format splits at its longest repeated block, and a text of as
  many values as some number of legs fills is read as that number of legs**.
-/

namespace XChainSdk

variable {fields lead block trail : List Slot} {size start : ℕ}

/-- A block of fields stands twice, between a lead and a trail. -/
structure Repeats (fields lead block trail : List Slot) : Prop where
  split : lead ++ block ++ block ++ trail = fields
  /-- neither `VERSION` nor a variadic tail -/
  user : ∀ f ∈ block, f.isAuto = false ∧ f.isRestField = false
  nonempty : block ≠ []

/-! ### The search -/

theorem repeatsAt_iff : repeatsAt fields size start = true ↔
    (∀ f ∈ (fields.drop start).take size, f.isAuto = false ∧ f.isRestField = false) ∧
      (fields.drop start).take size = (fields.drop (start + size)).take size := by
  simp [repeatsAt]

/-- The slots around a block and the one behind it. -/
theorem split_at (fields : List Slot) (size start : ℕ) :
    fields.take start ++ (fields.drop start).take size ++ (fields.drop (start + size)).take size ++
      fields.drop (start + 2 * size) = fields := by
  have hlast : (fields.drop (start + size)).take size ++ fields.drop (start + 2 * size) =
      fields.drop (start + size) := by
    have hdrop : fields.drop (start + 2 * size) = (fields.drop (start + size)).drop size := by
      rw [List.drop_drop, Nat.two_mul, Nat.add_assoc]
    rw [hdrop, List.take_append_drop]
  have hblock : (fields.drop start).take size ++ fields.drop (start + size) =
      fields.drop start := by
    rw [← List.drop_drop, List.take_append_drop]
  rw [List.append_assoc, hlast, List.append_assoc, hblock, List.take_append_drop]

theorem repeats_of_repeatsAt (hsize : 0 < size) (hfits : start + 2 * size ≤ fields.length)
    (h : repeatsAt fields size start = true) :
    Repeats fields (fields.take start) ((fields.drop start).take size)
      (fields.drop (start + 2 * size)) := by
  obtain ⟨huser, htwice⟩ := repeatsAt_iff.1 h
  refine ⟨?_, huser, fun hempty => ?_⟩
  · have hsplit := split_at fields size start
    rwa [← htwice] at hsplit
  · have hlength := congrArg List.length hempty
    rw [List.length_take, List.length_drop, List.length_nil] at hlength
    omega

theorem Repeats.repeatsAt (h : Repeats fields lead block trail) :
    repeatsAt fields block.length lead.length = true ∧
      lead.length + 2 * block.length ≤ fields.length := by
  obtain ⟨rfl, huser, -⟩ := h
  have hblock : (lead ++ block ++ block ++ trail).drop lead.length = block ++ (block ++ trail) := by
    rw [List.append_assoc, List.append_assoc, List.drop_left]
  have hsecond : (lead ++ block ++ block ++ trail).drop (lead.length + block.length) =
      block ++ trail := by
    rw [← List.drop_drop, hblock, List.drop_left]
  refine ⟨repeatsAt_iff.2 ?_, ?_⟩
  · rw [hblock, hsecond, List.take_left, List.take_left]
    exact ⟨huser, rfl⟩
  · simp only [List.length_append]
    omega

/-- The sizes are tried from the largest one down. -/
theorem sizes_sorted (n : ℕ) :
    ((List.range n).reverse.map (· + 1)).Pairwise fun a b => b < a := by
  rw [List.pairwise_map, List.pairwise_reverse]
  exact List.pairwise_lt_range.imp fun h => Nat.add_lt_add_right h 1

theorem mem_sizes {n : ℕ} : size ∈ (List.range n).reverse.map (· + 1) ↔ 0 < size ∧ size ≤ n := by
  simp only [List.mem_map, List.mem_reverse, List.mem_range]
  constructor
  · rintro ⟨k, hk, rfl⟩
    exact ⟨Nat.succ_pos k, hk⟩
  · rintro ⟨hpos, hle⟩
    exact ⟨size - 1, by omega, by omega⟩

/-- Blocks of one size are tried wherever two of them fit. -/
theorem find_starts_none (h : (List.range (fields.length - 2 * size + 1)).find?
    (repeatsAt fields size) = none) (hfits : start + 2 * size ≤ fields.length) :
    repeatsAt fields size start = false := by
  have hstart : start ∈ List.range (fields.length - 2 * size + 1) :=
    List.mem_range.2 (by omega)
  exact Bool.eq_false_iff.2 (List.find?_eq_none.1 h start hstart)

/-- What is found is a block of the largest size that stands twice anywhere. -/
theorem findRepeat_longest (h : findRepeat fields = some (size, start)) :
    0 < size ∧ start + 2 * size ≤ fields.length ∧ repeatsAt fields size start = true ∧
      ∀ larger start', size < larger → start' + 2 * larger ≤ fields.length →
        repeatsAt fields larger start' = false := by
  obtain ⟨before, size', after, hsizes, hfound, hnone⟩ := List.findSome?_eq_some_iff.1 h
  obtain ⟨start₀, hfind, hpair⟩ := Option.map_eq_some_iff.1 hfound
  obtain ⟨rfl, rfl⟩ := Prod.mk.inj hpair
  have hmem : size' ∈ (List.range (fields.length / 2)).reverse.map (· + 1) := by
    rw [hsizes]
    exact List.mem_append_right _ List.mem_cons_self
  obtain ⟨hpos, hhalf⟩ := mem_sizes.1 hmem
  have hstart : start₀ < fields.length - 2 * size' + 1 :=
    List.mem_range.1 (List.mem_of_find?_eq_some hfind)
  refine ⟨hpos, by omega, List.find?_some hfind, fun larger start' hlarger hfits => ?_⟩
  have hsorted := sizes_sorted (fields.length / 2)
  rw [hsizes] at hsorted
  have hbelow := (List.pairwise_cons.1 (List.pairwise_append.1 hsorted).2.1).1
  have hlargerMem : larger ∈ before ++ size' :: after := by
    rw [← hsizes]
    exact mem_sizes.2 ⟨by omega, by omega⟩
  -- A larger size stands before the one that is found, where nothing is.
  have hbefore : larger ∈ before := by
    rcases List.mem_append.1 hlargerMem with hbefore | hrest
    · exact hbefore
    · rcases List.mem_cons.1 hrest with rfl | hafter
      · exact absurd hlarger (lt_irrefl _)
      · exact absurd (hbelow larger hafter) (not_lt.2 hlarger.le)
  exact find_starts_none (Option.map_eq_none_iff.1 (hnone larger hbefore)) hfits

theorem findRepeat_none (h : findRepeat fields = none) (hsize : 0 < size)
    (hfits : start + 2 * size ≤ fields.length) : repeatsAt fields size start = false := by
  have hmem : size ∈ (List.range (fields.length / 2)).reverse.map (· + 1) :=
    mem_sizes.2 ⟨hsize, by omega⟩
  exact find_starts_none (Option.map_eq_none_iff.1 (List.findSome?_eq_none_iff.1 h size hmem)) hfits

/-! ### The group of a format -/

/-- Without a block that is found there is none. -/
theorem not_repeats_of_none (h : findRepeat fields = none) :
    ¬Repeats fields lead block trail := by
  intro hrepeats
  obtain ⟨hat, hfits⟩ := hrepeats.repeatsAt
  have hnot := findRepeat_none h (List.length_pos_iff.2 hrepeats.nonempty) hfits
  rw [hat] at hnot
  cases hnot

theorem getRepeatedGroup_some {g : RepeatedGroup} (h : getRepeatedGroup fields = some (some g)) :
    Repeats fields g.prefixSlots g.groupSlots g.suffixSlots ∧
      ∀ lead block trail, Repeats fields lead block trail →
        block.length ≤ g.groupSlots.length := by
  rw [getRepeatedGroup] at h
  split at h
  · next size start hfound =>
    cases h
    obtain ⟨hpos, hfits, hat, hlargest⟩ := findRepeat_longest hfound
    refine ⟨repeats_of_repeatsAt hpos hfits hat, fun lead block trail hrepeats => ?_⟩
    obtain ⟨hat', hfits'⟩ := hrepeats.repeatsAt
    have hlength : ((fields.drop start).take size).length = size := by
      rw [List.length_take, List.length_drop]
      omega
    rw [hlength]
    by_contra hlarger
    rw [hlargest _ _ (not_le.1 hlarger) hfits'] at hat'
    cases hat'
  · split at h <;> cases h

theorem getRepeatedGroup_of_no_repeat {r : Option (Option RepeatedGroup)}
    (h : getRepeatedGroup fields = r) (hr : ∀ g, r ≠ some (some g)) :
    findRepeat fields = none ∧
      (r = some none → (fields.filter fun f => !f.isAuto).Nodup) := by
  rw [getRepeatedGroup] at h
  split at h
  · exact absurd h.symm (hr _)
  · next hnone =>
    refine ⟨hnone, fun hnull => ?_⟩
    rw [hnull] at h
    by_contra hnodup
    rw [if_neg hnodup] at h
    cases h

/-- The legs of a text that fills some of the slots of its last leg. -/
theorem mapRepeatedFields_legs (g : RepeatedGroup) (valueSegs : List String) (n : ℕ)
    (hmore : g.prefixSlots.length + g.suffixSlots.length + n * g.groupSlots.length + 1 ≤
      valueSegs.length)
    (hfits : valueSegs.length ≤
      g.prefixSlots.length + g.suffixSlots.length + (n + 1) * g.groupSlots.length) :
    ∃ legs, (mapRepeatedFields g valueSegs).legs = some legs ∧ legs.length = n + 1 := by
  have hper : 0 < g.groupSlots.length := by
    by_contra hzero
    rw [Nat.eq_zero_of_not_pos hzero] at hmore hfits
    omega
  obtain ⟨hone, hholds, hleast⟩ := @legCountOf_spec g.groupSlots.length
    (g.prefixSlots.length + g.suffixSlots.length) valueSegs.length hper
  refine ⟨_, rfl, ?_⟩
  rw [List.length_map, List.length_range]
  generalize legCountOf g.groupSlots.length (g.prefixSlots.length + g.suffixSlots.length)
    valueSegs.length = count at hone hholds hleast
  -- Fewer legs do not hold the values, and more are not needed.
  have hge : n < count := by
    by_contra hlt
    have hmul := Nat.mul_le_mul_right g.groupSlots.length (not_lt.1 hlt)
    omega
  rcases hleast with rfl | hless
  · omega
  · by_contra hne
    have hmul : (n + 1) * g.groupSlots.length ≤ (count - 1) * g.groupSlots.length :=
      Nat.mul_le_mul_right _ (by omega)
    omega

/-- **A format splits at its longest repeated block, has no repeated field, or is refused; and a text
is read as the number of legs that its values fill.** -/
theorem getRepeatedGroup_decomposes (fields : List Slot) :
    (∀ g, getRepeatedGroup fields = some (some g) →
      Repeats fields g.prefixSlots g.groupSlots g.suffixSlots ∧
        ∀ lead block trail, Repeats fields lead block trail →
          block.length ≤ g.groupSlots.length) ∧
    (getRepeatedGroup fields = some none → (fields.filter fun f => !f.isAuto).Nodup) ∧
    (getRepeatedGroup fields = none → ∀ lead block trail, ¬Repeats fields lead block trail) ∧
    ∀ (g : RepeatedGroup) (valueSegs : List String) (n : ℕ),
      g.prefixSlots.length + g.suffixSlots.length + n * g.groupSlots.length + 1 ≤
        valueSegs.length →
      valueSegs.length ≤
        g.prefixSlots.length + g.suffixSlots.length + (n + 1) * g.groupSlots.length →
      ∃ legs, (mapRepeatedFields g valueSegs).legs = some legs ∧ legs.length = n + 1 := by
  refine ⟨fun g h => getRepeatedGroup_some h, fun h => ?_, fun h lead block trail => ?_,
    mapRepeatedFields_legs⟩
  · exact (getRepeatedGroup_of_no_repeat h (fun g hg => by cases hg)).2 rfl
  · exact not_repeats_of_none (getRepeatedGroup_of_no_repeat h (fun g hg => by cases hg)).1

/-- A payment of one token to three receivers. -/
theorem getRepeatedGroup_decomposes_send :
    Repeats [.version, .field "TICK", .field "AMOUNT", .field "DESTINATION", .field "AMOUNT",
      .field "DESTINATION", .field "MEMO"] [.version, .field "TICK"]
      [.field "AMOUNT", .field "DESTINATION"] [.field "MEMO"] ∧
    ∃ legs, (mapRepeatedFields ⟨[.version, .field "TICK"], [.field "AMOUNT", .field "DESTINATION"],
      [.field "MEMO"]⟩ ["1", "XCP", "5", "a", "6", "b", "7", "c"]).legs = some legs ∧
      legs.length = 3 := by
  have h := getRepeatedGroup_decomposes [.version, .field "TICK", .field "AMOUNT",
    .field "DESTINATION", .field "AMOUNT", .field "DESTINATION", .field "MEMO"]
  exact ⟨(h.1 ⟨[.version, .field "TICK"], [.field "AMOUNT", .field "DESTINATION"],
    [.field "MEMO"]⟩ (by decide)).1, h.2.2.2 _ _ 2 (by decide) (by decide)⟩

end XChainSdk
