import XChainSdk.Consensus.StakeQuorum

/-!
# Safety of the stake-weighted quorum

* `Snapshot.SameRows` : the same rows up to order and repetition.
* `meetsStakeThreshold_mono`, `meetsStakeThreshold_congr` : the verdict grows with the signers and
  sees rows and signers as sets.
* `stakeQuorum_reference` : the predicate is the exact two-thirds test over distinct sources, two
  quorums share more than a third of the stake, and malformed snapshots never pass.
-/

namespace XChainSdk

/-- The same rows up to order and repetition, with the same mark. -/
def Snapshot.SameRows (V V' : Snapshot) : Prop :=
  V'.truncated = V.truncated ∧ ∀ r, r ∈ V'.rows ↔ r ∈ V.rows

/-- Every signer of the first list is among the signers of the second, up to letter case. -/
def SignersLE (H : Host) (A A' : List Js) : Prop :=
  ∀ pk ∈ A, ∃ pk' ∈ A', H.toLowerCase pk.toText = H.toLowerCase pk'.toText

variable {H : Host} {B : BigNum} {V V' : Snapshot}

/-! ### Weights and rows -/

theorem Snapshot.Consistent.weight_eq (hV : V.Consistent H) {r : Js} {s : String}
    (hr : r ∈ V.rows) (hs : rowSource r = some s) : V.weight s = (rowValue r).getD 0 := by
  obtain ⟨r₀, hr₀⟩ := Option.isSome_iff_exists.1
    (firstRow_isSome.2 (mem_sourcesOf.2 ⟨r, hr, hs⟩))
  obtain ⟨hmem, hsrc⟩ := firstRow_eq_some hr₀
  rw [Snapshot.weight, hr₀, Option.bind_some, hV.weight r₀ hmem r hr (hsrc.trans hs.symm)]

theorem Snapshot.weight_nonneg_of_not_rejected (h : ¬V.Rejected) {s : String}
    (hs : s ∈ V.sources) : 0 ≤ V.weight s :=
  not_lt.1 fun hneg => h (.negativeWeight s hs hneg)

namespace Snapshot.SameRows

variable (h : V.SameRows V')
include h

theorem consistent (hV : V.Consistent H) : V'.Consistent H :=
  ⟨fun r hr r' hr' => hV.weight r ((h.2 r).1 hr) r' ((h.2 r').1 hr'),
    fun r hr r' hr' => hV.pubkey r ((h.2 r).1 hr) r' ((h.2 r').1 hr')⟩

theorem sources : V'.sources = V.sources := by
  ext s
  simp only [Snapshot.sources, mem_sourcesOf, h.2]

theorem weight (hV : V.Consistent H) {s : String} (hs : s ∈ V.sources) :
    V'.weight s = V.weight s := by
  obtain ⟨r, hr, hrs⟩ := mem_sourcesOf.1 hs
  rw [hV.weight_eq hr hrs, (h.consistent hV).weight_eq ((h.2 r).2 hr) hrs]

theorem signingSources (A : List Js) : V'.signingSources H A = V.signingSources H A := by
  ext s
  simp only [Snapshot.signingSources, mem_sourcesOf, List.mem_filter, h.2]

theorem total (hV : V.Consistent H) : V'.total = V.total := by
  rw [Snapshot.total, Snapshot.total, h.sources]
  exact Finset.sum_congr rfl fun s hs => h.weight hV hs

theorem not_rejected (hV : V.Consistent H) (hr : ¬V.Rejected) : ¬V'.Rejected := by
  rintro (ht | ⟨r, hr', hs⟩ | ⟨s, r, hr', hw⟩ | ⟨s, hs, hneg⟩ | htot)
  · exact hr (.truncated (h.1 ▸ ht))
  · exact hr (.blankSource r ((h.2 r).1 hr') hs)
  · obtain ⟨hmem, hs⟩ := firstRow_eq_some hr'
    have hmem' : r ∈ V.rows := (h.2 r).1 hmem
    obtain ⟨r₀, hr₀⟩ := Option.isSome_iff_exists.1
      (firstRow_isSome.2 (mem_sourcesOf.2 ⟨r, hmem', hs⟩))
    obtain ⟨hmem₀, hs₀⟩ := firstRow_eq_some hr₀
    exact hr (.noWeight s r₀ hr₀ ((hV.weight r₀ hmem₀ r hmem' (hs₀.trans hs.symm)).trans hw))
  · have hs' : s ∈ V.sources := h.sources ▸ hs
    exact hr (.negativeWeight s hs' (h.weight hV hs' ▸ hneg))
  · exact hr (.noStake (h.total hV ▸ htot))

end Snapshot.SameRows

theorem signingSources_mono {A A' : List Js} (h : SignersLE H A A') :
    V.signingSources H A ⊆ V.signingSources H A' := fun s hs => by
  obtain ⟨r, hr, hrs⟩ := mem_sourcesOf.1 hs
  obtain ⟨hr, hsigner⟩ := List.mem_filter.1 hr
  obtain ⟨pk, hpk, he⟩ : ∃ pk ∈ A, H.toLowerCase pk.toText = rowPubkey H r := by
    simpa using hsigner
  obtain ⟨pk', hpk', he'⟩ := h pk hpk
  refine mem_sourcesOf.2 ⟨r, List.mem_filter.2 ⟨hr, ?_⟩, hrs⟩
  simpa using ⟨pk', hpk', he'.symm.trans he⟩

/-! ### The verdict -/

section Exact

variable (hB : B.Exact) (hV : V.Consistent H) (hr : ¬V.Rejected)
include hB hV hr

theorem meetsStakeThreshold_exact (A : List Js) :
    meetsStakeThreshold H B V A =
      decide (Quorum.TwoThirds V.weight V.sources (V.signingSources H A)) :=
  meetsStakeThreshold_eq hB (fun _ _ => ⟨trivial, trivial, trivial⟩) hV hr A

theorem meetsStakeThreshold_mono {A A' : List Js} (h : SignersLE H A A')
    (hA : meetsStakeThreshold H B V A = true) : meetsStakeThreshold H B V A' = true := by
  rw [meetsStakeThreshold_exact hB hV hr, decide_eq_true_iff] at hA ⊢
  exact hA.mono (fun s hs => Snapshot.weight_nonneg_of_not_rejected hr
    (V.signingSources_subset A' hs)) (signingSources_mono h)

theorem meetsStakeThreshold_congr {A A' : List Js} (hrows : V.SameRows V')
    (hA : SignersLE H A A') (hA' : SignersLE H A' A) :
    meetsStakeThreshold H B V' A' = meetsStakeThreshold H B V A := by
  have hsign : V'.signingSources H A' = V.signingSources H A := by
    rw [hrows.signingSources]
    exact (signingSources_mono hA').antisymm (signingSources_mono hA)
  rw [meetsStakeThreshold_exact hB hV hr,
    meetsStakeThreshold_exact hB (hrows.consistent hV) (hrows.not_rejected hV hr), hsign,
    hrows.sources, decide_eq_decide]
  exact Quorum.twoThirds_congr (fun s hs => hrows.weight hV hs)
    fun s hs => hrows.weight hV (V.signingSources_subset A hs)

theorem meetsStakeThreshold_inter {A A' : List Js} (hA : meetsStakeThreshold H B V A = true)
    (hA' : meetsStakeThreshold H B V A' = true) :
    V.total < 3 * ∑ s ∈ V.signingSources H A ∩ V.signingSources H A', V.weight s := by
  rw [meetsStakeThreshold_exact hB hV hr, decide_eq_true_iff] at hA hA'
  exact hA.inter (fun s hs => Snapshot.weight_nonneg_of_not_rejected hr hs)
    (V.signingSources_subset A) (V.signingSources_subset A') hA'

end Exact

/-- **Stake-weighted quorum.**  With exact decimals: on a consistent snapshot that is not refused
the predicate is the two-thirds test over distinct sources, is monotone in the signers, sees rows
and signers as sets, and any two lists of signers that pass share sources of more than a third of
the stake; a refused snapshot passes for no list of signers. -/
theorem stakeQuorum_reference (H : Host) (B : BigNum) (hB : B.Exact) :
    (∀ V : Snapshot, V.Consistent H → ¬V.Rejected →
      (∀ A, meetsStakeThreshold H B V A =
        decide (3 * ∑ s ∈ V.signingSources H A, V.weight s > 2 * ∑ s ∈ V.sources, V.weight s)) ∧
      (∀ A A', SignersLE H A A' → meetsStakeThreshold H B V A = true →
        meetsStakeThreshold H B V A' = true) ∧
      (∀ V' A A', V.SameRows V' → SignersLE H A A' → SignersLE H A' A →
        meetsStakeThreshold H B V' A' = meetsStakeThreshold H B V A) ∧
      ∀ A A', meetsStakeThreshold H B V A = true → meetsStakeThreshold H B V A' = true →
        V.total < 3 * ∑ s ∈ V.signingSources H A ∩ V.signingSources H A', V.weight s) ∧
    ∀ V : Snapshot, V.Rejected → ∀ A, meetsStakeThreshold H B V A = false := by
  refine ⟨fun V hV hr => ⟨fun A => ?_, fun A A' h => meetsStakeThreshold_mono hB hV hr h,
    fun V' A A' hrows h h' => meetsStakeThreshold_congr hB hV hr hrows h h',
    fun A A' h h' => meetsStakeThreshold_inter hB hV hr h h'⟩, fun V hr A => ?_⟩
  · exact meetsStakeThreshold_exact hB hV hr A
  · exact meetsStakeThreshold_of_rejected hB (fun _ _ => ⟨trivial, trivial, trivial⟩) hr A

/-! ### A snapshot of two sources -/

/-- A validator row. -/
def stakeRow (pubkey source weight : String) : Js :=
  .obj [("pubkey", .str pubkey), ("source", .str source), ("weight", .str weight)]

/-- Source `s1` holds two thirds with two keys, `s2` the rest. -/
def twoSources : Snapshot :=
  ⟨[stakeRow "AA" "s1" "2.0", stakeRow "bb" "s1" "2", stakeRow "cc" "s2" "1"], false⟩

theorem stakeQuorum_reference_twoSources :
    meetsStakeThreshold plainHost BigNum.rational twoSources [.str "aa", .str "bb"] =
      decide (3 * ∑ s ∈ twoSources.signingSources plainHost [.str "aa", .str "bb"],
        twoSources.weight s > 2 * ∑ s ∈ twoSources.sources, twoSources.weight s) := by
  have hall := stakeQuorum_reference plainHost BigNum.rational BigNum.rational_exact
  have hpass : meetsStakeThreshold plainHost BigNum.rational twoSources [.str "aa", .str "cc"] =
      true := by decide +kernel
  refine ((hall.1 twoSources ⟨by decide +kernel, by decide⟩ fun hr => ?_).1) _
  simpa [hpass] using hall.2 twoSources hr [.str "aa", .str "cc"]

example : meetsStakeThreshold plainHost BigNum.rational twoSources [.str "aa", .str "bb"] = false :=
  by decide +kernel

end XChainSdk
