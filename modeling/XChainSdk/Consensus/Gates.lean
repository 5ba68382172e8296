import XChainSdk.Js.Value

/-!
# Activation heights

The registry rows that the checkpoint verifiers read, with the predicates over them.  None of
these rows has a regtest override from the environment, so every read sees the committed table.

* `activeAt` : the registry's own predicate; the network must be a string.
* `isEquivHeaderActive`, `isStakeWeightedQuorumActive` : the two carriers that index their table
  by whatever the network converts to.
* `buriedSnapshotBlock` : the height at which a validator set is resolved.
-/

namespace XChainSdk

/-- A table of thresholds by network key; `none` is the unpinned network. -/
abbrev GateTable := List (String × Option ℕ)

/-- The height that is not reached before the operator names one. -/
def UNARMED : ℕ := 9999999999

/-- `checkpoint_commitment_activation.CHECKPOINT_COMMITMENT_ACTIVATION`. -/
def CHECKPOINT_COMMITMENT_ACTIVATION : GateTable :=
  [("mainnet", some 961000), ("testnet", some 146000), ("regtest", some 0)]

/-- `checkpoint_supersede_activation.CHECKPOINT_SUPERSEDE_ACTIVATION`. -/
def CHECKPOINT_SUPERSEDE_ACTIVATION : GateTable :=
  [("mainnet", none), ("BTC:testnet", some 158557), ("LTC:testnet", some 4949697),
    ("DOGE:testnet", some 68035864), ("testnet", some UNARMED), ("regtest", some 0)]

/-- `equivocation_header.EQUIV_HEADER_ACTIVATION`. -/
def EQUIV_HEADER_ACTIVATION : GateTable :=
  [("mainnet", some 961000), ("testnet", some 0), ("regtest", some 0)]

/-- `stake_weighted_quorum.STAKE_WEIGHTED_QUORUM_ACTIVATION`. -/
def STAKE_WEIGHTED_QUORUM_ACTIVATION : GateTable :=
  [("mainnet", some 961000), ("testnet", some 0), ("regtest", some 0)]

/-- `snapshot_reorg_buffer.SNAPSHOT_BURIAL_ACTIVATION`. -/
def SNAPSHOT_BURIAL_ACTIVATION : GateTable :=
  [("mainnet", some 0), ("testnet", some 0), ("regtest", some 0)]

/-- `snapshot_reorg_buffer.CANONICAL_REORG_BUFFER`. -/
def CANONICAL_REORG_BUFFER : ℕ := 6

/-- `state_subtree_activation.ESCROW_LOCKED_LEAF_ACTIVATION`. -/
def ESCROW_LOCKED_LEAF_ACTIVATION : GateTable :=
  [("BTC:regtest", some 11200), ("BTC:testnet", some 0), ("LTC:testnet", some 0),
    ("DOGE:testnet", some 0)]

/-- The coin key first, then the bare network key. -/
def resolveThreshold (table : GateTable) (network : String) (coin : Option String) :
    Option (Option ℕ) :=
  match coin.bind fun c => table.lookup (c ++ ":" ++ network) with
  | some t => some t
  | none => table.lookup network

/-- `clock >= threshold` after `parseInt`; anything that is not a finite number is inactive. -/
def reached (threshold : Option ℕ) (clock : Js) : Bool :=
  match threshold, clock.parseInt with
  | some t, .fin c => decide ((t : ℚ) ≤ c)
  | _, _ => false

/-- The registry's predicate over a table of heights. -/
def activeAt (table : GateTable) (network : Js) (coin : Option String) (height : Js) : Bool :=
  match network with
  | .str n => reached (resolveThreshold table n coin).join height
  | _ => false

def isCheckpointCommitmentActive (snapshotBlock network : Js) : Bool :=
  activeAt CHECKPOINT_COMMITMENT_ACTIVATION network none snapshotBlock

def isCheckpointSupersedeActive (snapshotBlock network : Js) : Bool :=
  activeAt CHECKPOINT_SUPERSEDE_ACTIVATION network (some "BTC") snapshotBlock

/-- A carrier's own predicate: the table is indexed by the text of the network.  Inherited members
of the table compare as NaN, so only its own rows count. -/
def tableReached (table : GateTable) (snapshotBlock network : Js) : Bool :=
  match table.lookup network.toText with
  | some t => reached t snapshotBlock
  | none => false

def isEquivHeaderActive (snapshotBlock network : Js) : Bool :=
  tableReached EQUIV_HEADER_ACTIVATION snapshotBlock network

def isStakeWeightedQuorumActive (snapshotBlock network : Js) : Bool :=
  tableReached STAKE_WEIGHTED_QUORUM_ACTIVATION snapshotBlock network

/-- Empty values and booleans are refused before `Number`, which would read them as 0 or 1. -/
def isSnapshotBurialActive (snapshotBlock network : Js) : Bool :=
  match snapshotBlock with
  | .null | .undefined | .str "" | .bool _ => false
  | sb =>
    match sb.toNumber, (SNAPSHOT_BURIAL_ACTIVATION.lookup network.toText).join with
    | .fin c, some t => decide ((t : ℚ) ≤ c)
    | _, _ => false

/-- The height to resolve a set at: six blocks below the declared one, at least 0. -/
def buriedSnapshotBlock (snapshotBlock network : Js) : Js :=
  if isSnapshotBurialActive snapshotBlock network then
    match snapshotBlock.toNumber with
    | .fin c => .num (.fin (max 0 (⌊c⌋ - CANONICAL_REORG_BUFFER)))
    | x => .num x
  else snapshotBlock

/-- A plain non-negative integer, or a string of digits. -/
def strictHeight : Js → Option ℚ
  | .num (.fin q) => if q.den = 1 ∧ 0 ≤ q then some q else none
  | .str s =>
    if s.toList ≠ [] ∧ s.toList.all Char.isDigit then (stringToNumber s).toRat? else none
  | _ => none

/-- Whether the locked-escrow leaf is committed at `blockIndex`; there is no fallback to the bare
network key. -/
def isEscrowLockedLeafActive (blockIndex network coin : Js) : Bool :=
  if coin.isNullish then false
  else
    match strictHeight blockIndex,
      (ESCROW_LOCKED_LEAF_ACTIVATION.lookup (coin.toText ++ ":" ++ network.toText)).join with
    | some b, some t => decide ((t : ℚ) ≤ b)
    | _, _ => false

/-! ### How the gates are related -/

theorem reached_iff {t : ℕ} {x : Js} :
    reached (some t) x = true ↔ ∃ c, x.parseInt = .fin c ∧ (t : ℚ) ≤ c := by
  cases hx : x.parseInt <;> simp [reached, hx]

theorem reached_mono {s t : ℕ} {x : Js} (hst : s ≤ t) (h : reached (some t) x = true) :
    reached (some s) x = true := by
  obtain ⟨c, hc, htc⟩ := reached_iff.1 h
  exact reached_iff.2 ⟨c, hc, le_trans (by exact_mod_cast hst) htc⟩

/-- An active commitment names one of the three networks, as a string. -/
theorem network_of_commitmentActive {sb n : Js} (h : isCheckpointCommitmentActive sb n = true) :
    ∃ s t, n = .str s ∧ (s, t) ∈ [("mainnet", 961000), ("testnet", 146000), ("regtest", 0)] ∧
      reached (some t) sb = true := by
  cases n with
  | str s =>
    simp only [isCheckpointCommitmentActive, activeAt, resolveThreshold, Option.bind_none,
      CHECKPOINT_COMMITMENT_ACTIVATION, List.lookup_cons, List.lookup_nil] at h
    split at h
    · next hs => exact ⟨s, 961000, rfl, by simp_all, by simpa using h⟩
    · split at h
      · next hs => exact ⟨s, 146000, rfl, by simp_all, by simpa using h⟩
      · split at h
        · next hs => exact ⟨s, 0, rfl, by simp_all, by simpa using h⟩
        · simp [reached] at h
  | _ => cases h

/-- Where the roots are committed the equivocation header is in effect as well. -/
theorem equivHeaderActive_of_commitmentActive {sb n : Js}
    (h : isCheckpointCommitmentActive sb n = true) : isEquivHeaderActive sb n = true := by
  obtain ⟨s, t, rfl, hmem, hr⟩ := network_of_commitmentActive h
  simp only [List.mem_cons, Prod.mk.injEq, List.not_mem_nil, or_false] at hmem
  rcases hmem with ⟨rfl, rfl⟩ | ⟨rfl, rfl⟩ | ⟨rfl, rfl⟩
  · exact hr
  · exact reached_mono (Nat.zero_le _) hr
  · exact hr

end XChainSdk
