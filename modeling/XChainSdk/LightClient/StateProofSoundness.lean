import XChainSdk.Js.RawJs
import XChainSdk.LightClient.StateProofs

/-!
# Soundness of state proofs

What the verifiers report are the served strings themselves, while the committed leaf is the hash of a
string's text, and half of a surrogate pair has the text of U+FFFD.

* `StateQuery.verifyServed` : the verifiers on values with their own strings.
* `StateQuery.Respellable` : a stored string that another string has the text of.
* `StateProofsSound`, `stateProofs_sound_iff` : **exactly when no served proof can lie** about a query.
-/

namespace XChainSdk

open Hash Js HashTree

/-! ### RawJs values -/

/-- The comparison of `expectedMismatch`, on the strings themselves. -/
def sameSpelling (expected proof : RawJs) : Bool :=
  !expected.text.truthy || expected.ownEntries.all fun (field, want) =>
    want.isUndefined || want.units == (proof.field field).units

/-- A verdict and the string that it reports. -/
structure ServedReport where
  verified : Bool
  value : Option CodeUnits

namespace StateQuery

variable (H : Host) (q : StateQuery)

/-- The string that is reported: a canonical amount, or the `state_value` as it is served. -/
def servedValue (proof : RawJs) (value : Option String) : Option CodeUnits :=
  match q with
  | spendable _ _ | locked _ _ => value.map .ofText
  | contractState _ _ =>
    if (proof.field "state_value").isNullish then none
    else some (proof.field "state_value").units

/-- The verifier of the query.  The arguments of the caller are only hashed and parsed. -/
def verifyServed (proof : RawJs) (root chain network : Js) (expected : RawJs)
    (trustedHeight : Js) : ServedReport :=
  let v := q.verify H proof.text root chain network expected.text trustedHeight
  if v.verified && sameSpelling expected proof then ⟨true, q.servedValue proof v.value⟩
  else ⟨false, none⟩

/-- What the state commits under a key. -/
def committedUnits (σ : CommittedState) (key : Digest) : Option CodeUnits :=
  match q with
  | spendable _ _ | locked _ _ => some (.ofText (σ.balances.amountAt key))
  | contractState _ _ => σ.contractState.get key

/-- The report for a key without a leaf. -/
def absentUnits : Option CodeUnits := q.absentValue.map .ofText

/-- Another string has the text of the one that is stored. -/
def Respellable (σ : CommittedState) (key : Digest) : Prop :=
  match q with
  | spendable _ _ | locked _ _ => False
  | contractState _ _ => ∃ u, σ.contractState.get key = some u ∧ '\uFFFD' ∈ u.text.toList

variable {H} {q} {σ : CommittedState} {key : Digest}

theorem map_text_map_ofText (v : Option String) : (v.map CodeUnits.ofText).map CodeUnits.text = v := by
  cases v with
  | none => rfl
  | some v => rw [Option.map_some, Option.map_some, CodeUnits.text_ofText]

theorem map_text_committedUnits :
    (q.committedUnits σ key).map CodeUnits.text = q.committed σ key := by
  cases q with
  | spendable address tick => exact map_text_map_ofText (some _)
  | locked address tick => exact map_text_map_ofText (some _)
  | contractState contractIndex stateKey => rfl

theorem committedUnits_eq_absentUnits_iff :
    q.committedUnits σ key = q.absentUnits ↔ q.stored σ key = none := by
  rw [← committed_eq_absentValue_iff]
  constructor
  · intro h
    rw [← map_text_committedUnits, h, absentUnits, map_text_map_ofText]
  · intro h
    cases q with
    | spendable address tick => exact congrArg (Option.map CodeUnits.ofText) h
    | locked address tick => exact congrArg (Option.map CodeUnits.ofText) h
    | contractState contractIndex stateKey => exact Option.map_eq_none_iff.1 h

section Verdicts

variable {proof expected : RawJs} {root chain network trustedHeight : Js}

theorem verifyServed_verified_iff :
    (q.verifyServed H proof root chain network expected trustedHeight).verified = true ↔
      (q.verify H proof.text root chain network expected.text trustedHeight).verified = true ∧
        sameSpelling expected proof = true := by
  rw [verifyServed, ← Bool.and_eq_true]
  split_ifs with h <;> simp [h]

theorem value_verifyServed
    (h : (q.verifyServed H proof root chain network expected trustedHeight).verified = true) :
    (q.verifyServed H proof root chain network expected trustedHeight).value =
      q.servedValue proof
        (q.verify H proof.text root chain network expected.text trustedHeight).value := by
  have hboth := Bool.and_eq_true_iff.2 (verifyServed_verified_iff.1 h)
  rw [verifyServed, if_pos hboth]

/-- The string that is reported has the text that is checked. -/
theorem map_text_servedValue
    (h : (q.verify H proof.text root chain network expected.text trustedHeight).verified = true) :
    (q.servedValue proof
        (q.verify H proof.text root chain network expected.text trustedHeight).value).map
        CodeUnits.text =
      (q.verify H proof.text root chain network expected.text trustedHeight).value := by
  cases q with
  | spendable address tick => exact map_text_map_ofText _
  | locked address tick => exact map_text_map_ofText _
  | contractState contractIndex stateKey =>
    refine Eq.trans ?_ (stateValue_of_verified h).symm
    rw [servedValue, stateValue, ← RawJs.text_field, RawJs.isNullish]
    split_ifs
    · rfl
    · rw [Option.map_some, RawJs.text_units]

theorem committed_of_value
    (h : (q.verifyServed H proof root chain network expected trustedHeight).verified = true)
    (hvalue : (q.verifyServed H proof root chain network expected trustedHeight).value =
      q.committedUnits σ key) :
    (q.verify H proof.text root chain network expected.text trustedHeight).value =
      q.committed σ key := by
  rw [← map_text_servedValue (verifyServed_verified_iff.1 h).1, ← value_verifyServed h, hvalue,
    map_text_committedUnits]

/-- A string that is not respellable is the only one with its text. -/
theorem servedValue_eq_committedUnits (hno : ¬ q.Respellable σ key) {value : Option String}
    (htext : (q.servedValue proof value).map CodeUnits.text = q.committed σ key) :
    q.servedValue proof value = q.committedUnits σ key := by
  cases q with
  | spendable address tick =>
    rw [servedValue, map_text_map_ofText] at htext
    rw [servedValue, htext]
    rfl
  | locked address tick =>
    rw [servedValue, map_text_map_ofText] at htext
    rw [servedValue, htext]
    rfl
  | contractState contractIndex stateKey =>
    change _ = σ.contractState.get key
    change _ = (σ.contractState.get key).map CodeUnits.text at htext
    cases hstored : σ.contractState.get key with
    | none => rwa [hstored, Option.map_none, Option.map_eq_none_iff] at htext
    | some u =>
      rw [hstored, Option.map_some, Option.map_eq_some_iff] at htext
      obtain ⟨w, hw, hwu⟩ := htext
      have hplain : '\uFFFD' ∉ u.text.toList := fun hin => hno ⟨u, hstored, hin⟩
      rw [hw, CodeUnits.eq_ofText_of_text hwu hplain, ← CodeUnits.eq_ofText_of_text rfl hplain]

end Verdicts

/-- A served proof of a contract's state, with a string of the server's choice. -/
def servedStateProof (contractIndex stateKey : String) (value : CodeUnits) (key : Digest)
    (leaf subRoot compressed path : Js) : RawJs :=
  .obj [("contract_index", .ofText contractIndex), ("state_key", .ofText stateKey),
    ("state_value", .str value), ("contract_state_root", .ofJs subRoot),
    ("smt_proof", .ofJs (obj [("key", hexText key.bytes), ("leaf_value", leaf),
      ("compressed", compressed)])),
    ("sub_root_path", .ofJs path)]

theorem text_servedStateProof (contractIndex stateKey : String) (value : CodeUnits) (key : Digest)
    (leaf subRoot compressed path : Js) :
    (servedStateProof contractIndex stateKey value key leaf subRoot compressed path).text =
      contractStateProof contractIndex stateKey value.text key leaf subRoot compressed path := by
  simp only [servedStateProof, RawJs.text, RawJs.fieldTexts, RawJs.text_ofText, RawJs.text_ofJs,
    contractStateProof]

/-- **A respellable string is reported as another one** by some verified proof. -/
theorem exists_verified_of_respellable {chain network trustedHeight : Js}
    (hkey : q.key H chain.toText network.toText = some key) (h : q.Respellable σ key) :
    ∃ proof : RawJs, q.Names proof.text ∧
      q.proofHashed H key proof.text ⊆ {x | x ∈ σ.leaves.hashed H} ∧
      (q.verifyServed H proof (hexText (σ.leaves.root H)) chain network .undefined
        trustedHeight).verified = true ∧
      (q.verifyServed H proof (hexText (σ.leaves.root H)) chain network .undefined
        trustedHeight).value ≠ q.committedUnits σ key := by
  cases q with
  | spendable address tick => exact h.elim
  | locked address tick => exact h.elim
  | contractState contractIndex stateKey =>
    obtain ⟨u, hstored, hin⟩ := h
    obtain ⟨w, hw, hne⟩ : ∃ w : CodeUnits, w.text = u.text ∧ w ≠ u := by
      obtain ⟨w, hw, hne⟩ := CodeUnits.exists_respelling hin
      by_cases hwu : w = u
      · exact ⟨.ofText u.text, CodeUnits.text_ofText _, hwu ▸ hne.symm⟩
      · exact ⟨w, hw, hwu⟩
    obtain ⟨leaf, subRoot, compressed, path, hhashed, hreport⟩ :=
      exists_verified_of_stored hkey hstored
    let proof := servedStateProof contractIndex stateKey w key leaf subRoot compressed path
    have htext : proof.text =
        contractStateProof contractIndex stateKey u.text key leaf subRoot compressed path := by
      rw [text_servedStateProof, hw]
    have hverified : ((contractState contractIndex stateKey).verifyServed H proof
        (hexText (σ.leaves.root H)) chain network .undefined trustedHeight).verified = true := by
      rw [verifyServed_verified_iff, htext]
      exact ⟨congrArg StateReport.verified hreport, rfl⟩
    refine ⟨proof, ?_, by rwa [htext], hverified, ?_⟩
    · rw [htext]
      exact ⟨Js.toText_str _, Js.toText_str _⟩
    · rw [value_verifyServed hverified]
      change some w ≠ σ.contractState.get key
      rw [hstored]
      exact fun he => hne (Option.some.inj he)

end StateQuery

/-! ### Soundness -/

/-- The proofs of a query are sound: a verified one reports the committed string, and the value of an
absent leaf exactly where no leaf is committed; a locked balance is verified only at trusted heights
at which it is armed; and the same proof object is verified for no other query or chain. -/
structure StateProofsSound (H : Host) (σ : CommittedState) (chain network trustedHeight : Js)
    (q : StateQuery) : Prop where
  reports : ∀ proof expected : RawJs, q.Names proof.text →
    (q.verifyServed H proof (hexText (σ.leaves.root H)) chain network expected
      trustedHeight).verified = true →
    ∃ key, q.key H chain.toText network.toText = some key ∧
      (CollisionFree H.sha256 ({x | x ∈ σ.leaves.hashed H} ∪ q.proofHashed H key proof.text) →
        (q.verifyServed H proof (hexText (σ.leaves.root H)) chain network expected
            trustedHeight).value = q.committedUnits σ key ∧
          ((q.verifyServed H proof (hexText (σ.leaves.root H)) chain network expected
            trustedHeight).value = q.absentUnits ↔ q.stored σ key = none))
  servable : ∀ (proof expected : RawJs) (root : Js),
    (q.verifyServed H proof root chain network expected trustedHeight).verified = true →
    q.Servable chain network trustedHeight
  apart : ∀ (q' : StateQuery) (proof expected expected' : RawJs)
      (root root' chain' network' trustedHeight' : Js),
    CollisionFree H.sha256 {x | joinFields (q.fields chain.toText network.toText) = some x ∨
      joinFields (q'.fields chain'.toText network'.toText) = some x} →
    q.Names proof.text → q'.Names proof.text →
    (q.verifyServed H proof root chain network expected trustedHeight).verified = true →
    (q'.verifyServed H proof root' chain' network' expected' trustedHeight').verified = true →
    q = q' ∧ chain.toText = chain'.toText ∧ network.toText = network'.toText

/-- **Soundness of state proofs, with its exact condition.**  For every committed state, every query
and every trusted height: the proofs are sound if and only if no wrong value is forgeable under the
key, that is, its leaf hash as the text of a one-element array does not stand for a byte that the
key's path reaches; and no stored string has a U+FFFD in its text, which half of a surrogate pair has
as well. -/
theorem stateProofs_sound_iff (H : Host) (σ : CommittedState) (chain network trustedHeight : Js)
    (q : StateQuery) :
    StateProofsSound H σ chain network trustedHeight q ↔
      ∀ key, q.key H chain.toText network.toText = some key →
        (∀ v, q.Servable chain network trustedHeight → q.IsValue v →
          CollisionFree H.sha256 (insert (amountLeafPreimage v) {x | x ∈ σ.leaves.hashed H}) →
          some v ≠ q.committed σ key → ¬ q.Forgeable H σ key v) ∧
        (CollisionFree H.sha256 {x | x ∈ σ.leaves.hashed H} → ¬ q.Respellable σ key) := by
  constructor
  -- Each kind of forgery is a verified proof, which soundness says reports what is committed.
  · refine fun hsound key hkey => ⟨fun v hservable hvalue hS hne hforge => ?_, fun hS hrespell => ?_⟩
    · obtain ⟨proof, hnames, hhashed, hreport⟩ :=
        StateQuery.exists_verified_of_forgeable hkey hservable hvalue hforge
      have hverified : (q.verifyServed H (.ofJs proof) (hexText (σ.leaves.root H)) chain network
          .undefined trustedHeight).verified = true := by
        rw [StateQuery.verifyServed_verified_iff, RawJs.text_ofJs]
        exact ⟨congrArg StateReport.verified hreport, rfl⟩
      obtain ⟨key', hkey', hcommitted⟩ :=
        hsound.reports (.ofJs proof) .undefined (by rwa [RawJs.text_ofJs]) hverified
      cases hkey.symm.trans hkey'
      rw [RawJs.text_ofJs] at hcommitted
      have htext := StateQuery.committed_of_value hverified
        (hcommitted (hS.mono (Set.union_subset (fun x hx => .inr hx) hhashed))).1
      rw [RawJs.text_ofJs] at htext
      exact hne ((congrArg StateReport.value hreport).symm.trans htext)
    · obtain ⟨proof, hnames, hhashed, hverified, hne⟩ :=
        StateQuery.exists_verified_of_respellable hkey hrespell
      obtain ⟨key', hkey', hcommitted⟩ := hsound.reports proof .undefined hnames hverified
      cases hkey.symm.trans hkey'
      exact hne (hcommitted (hS.mono (Set.union_subset (fun x hx => hx) hhashed))).1
  · intro hno
    -- The other way, what is reported is first the committed text, then the committed code units.
    have hservable : ∀ (proof expected : RawJs) (root : Js),
        (q.verifyServed H proof root chain network expected trustedHeight).verified = true →
        q.Servable chain network trustedHeight := by
      intro proof expected root h
      have h := (StateQuery.verifyServed_verified_iff.1 h).1
      cases q with
      | spendable address tick => trivial
      | locked address tick =>
        exact (escrowChecks_pass_iff.1 (verifyLockedBalanceProof_verified_iff.1 h).2.2.1).2
      | contractState contractIndex stateKey => trivial
    refine ⟨fun proof expected hnames h => ?_, hservable,
      fun q' proof expected expected' root root' chain' network' trustedHeight' hS hnames hnames' h
        h' => StateQuery.apart hS hnames hnames' (StateQuery.verifyServed_verified_iff.1 h).1
          (StateQuery.verifyServed_verified_iff.1 h').1⟩
    have hverified := (StateQuery.verifyServed_verified_iff.1 h).1
    obtain ⟨key, hkey, -⟩ := StateQuery.key_of_verified hnames hverified
    refine ⟨key, hkey, fun hS => ?_⟩
    have hcommitted : (q.verify H proof.text (hexText (σ.leaves.root H)) chain network
        expected.text trustedHeight).value = q.committed σ key := by
      rcases StateQuery.verify_sound hkey hnames hS hverified with hc | ⟨v, hv, hvalue, hin, hforge⟩
      · exact hc
      · by_contra hne
        refine (hno key hkey).1 v (hservable proof expected _ h) hvalue (hS.mono ?_) (hv ▸ hne)
          hforge
        exact Set.insert_subset (.inr hin) fun y hy => .inl hy
    have hunits := StateQuery.servedValue_eq_committedUnits
      ((hno key hkey).2 (hS.mono fun x hx => .inl hx))
      ((StateQuery.map_text_servedValue hverified).trans hcommitted)
    rw [StateQuery.value_verifyServed h, hunits]
    exact ⟨rfl, StateQuery.committedUnits_eq_absentUnits_iff⟩

/-! ### A locked balance that can be forged -/

/-- A state with one locked balance, whose key has the number of the sample balance. -/
def sampleLocked : CommittedState where
  balances := sampleBalances.balances
  contractState := ⟨[], List.nodup_nil⟩
  other _ := ⟨[], List.nodup_nil⟩

/-- The locked balance. -/
def sampleLockedQuery : StateQuery := .locked "erin1" "GAS"

theorem leaves_sampleLocked : sampleLocked.leaves = sampleBalances.leaves := by
  funext name
  change (if name = "balances_root" then _ else if name = "contract_state_root" then _ else _) =
    (if name = "balances_root" then _ else _)
  split_ifs <;> rfl

/-- **A verified proof reports 5 locked where 1 is**, at a height at which the leaf is committed. -/
theorem verifyLockedBalanceProof_forged :
    ¬ StateProofsSound sampleHost sampleLocked (str "LTC") (str "testnet") (num (.fin 7))
      sampleLockedQuery := by
  intro hsound
  have hkey : sampleLockedQuery.key sampleHost (str "LTC").toText (str "testnet").toText =
      some sampleKey := by
    rw [Js.toText_str, Js.toText_str]
    decide
  have hservable : sampleLockedQuery.Servable (str "LTC") (str "testnet") (num (.fin 7)) :=
    ⟨0, by decide, 7, by decide, by decide, by decide⟩
  have hforge : sampleLockedQuery.Forgeable sampleHost sampleLocked sampleKey forgedAmount := by
    obtain ⟨x, β, htext, hβ, hreach⟩ := forgeable_forgedAmount
    exact ⟨x, β, htext, hβ, by rwa [leaves_sampleLocked]⟩
  have hvalue : canonicalAmount forgedAmount = some forgedAmount := by decide
  obtain ⟨proof, hnames, hhashed, hreport⟩ :=
    StateQuery.exists_verified_of_forgeable hkey hservable hvalue hforge
  have hverified : (sampleLockedQuery.verifyServed sampleHost (.ofJs proof)
      (hexText (sampleLocked.leaves.root sampleHost)) (str "LTC") (str "testnet") .undefined
      (num (.fin 7))).verified = true := by
    rw [StateQuery.verifyServed_verified_iff, RawJs.text_ofJs]
    exact ⟨congrArg StateReport.verified hreport, rfl⟩
  obtain ⟨key, hkey', hcommitted⟩ :=
    hsound.reports (.ofJs proof) .undefined (by rwa [RawJs.text_ofJs]) hverified
  cases hkey.symm.trans hkey'
  rw [RawJs.text_ofJs] at hcommitted
  have hfree : CollisionFree sampleHost.sha256 ({x | x ∈ sampleLocked.leaves.hashed sampleHost} ∪
      sampleLockedQuery.proofHashed sampleHost sampleKey proof) := by
    rw [leaves_sampleLocked] at hhashed ⊢
    exact collisionFree_sampleBalances.mono (Set.union_subset (fun x hx => .inr hx) hhashed)
  have hreported := StateQuery.committed_of_value hverified (hcommitted hfree).1
  rw [RawJs.text_ofJs] at hreported
  exact absurd ((congrArg StateReport.value hreport).symm.trans hreported) (by decide)

end XChainSdk
