import XChainSdk.Carrier.Reconciliation
import XChainSdk.Wallet.MultisigSigning
import XChainSdk.Lib.Checks
import XChainSdk.Lib.Loop

/-!
# What a multisig signer signs

The program checks that the scripts of an input hash to the output it spends, and then hands the
input to the library.  On the library's script route the two agree; an input with a taproot field
goes another way, and the program looks at no such field.

* `CommitsTo`, `MultisigFor`, `MultisigScope` : what a signature may cover, and which inputs.
* `isMultisigInputForKey_iff` : the program's check is that statement.
* `signTargets_ok_iff` : the run signs each target once, and each the way it would be signed alone.
* `signMultisigPsbt_scope_iff` : the signatures stay in scope exactly when no signed input carries a
  taproot field.
-/

namespace XChainSdk

open Hash

variable {Network : Type} (L : Signer Network)

/-! ### The scope of a signature -/

/-- The spent output commits to the script through the input's script fields. -/
inductive CommitsTo (spent : Bytes) (inp : MultisigInput) (script : Bytes) : Prop
  | p2sh (hwitness : inp.witnessScript = none) (hredeem : inp.redeemScript = some script)
      (hspent : p2shOutput L script = some spent)
  | p2wsh (hwitness : inp.witnessScript = some script) (hredeem : inp.redeemScript = none)
      (hspent : p2wshOutput L script = some spent)
  | p2shP2wsh {redeem : Bytes} (hwitness : inp.witnessScript = some script)
      (hredeem : inp.redeemScript = some redeem) (hscript : p2wshOutput L script = some redeem)
      (hspent : p2shOutput L redeem = some spent)

/-- The output that the library signs for commits to a bare multisig script with the key. -/
structure MultisigFor (inp : MultisigInput) (pubkey script : Bytes) : Prop where
  commits : ∃ prevout, signedPrevout L inp = some prevout ∧ CommitsTo L prevout.script inp script
  lists : ∃ pubkeys, p2ms L script = some pubkeys ∧ pubkey ∈ pubkeys

/-- Every signature is over the multisig script of its input, every listed input has one, and no
other input has any. -/
structure MultisigScope (inputs : List MultisigInput) (pubkey : Bytes)
    (inputIndices : Option (List Js)) (made : List (ℕ × Signature)) : Prop where
  covered : ∀ e ∈ made, ∃ inp script, inputs[e.1]? = some inp ∧ MultisigFor L inp pubkey script ∧
    e.2 = .ecdsa script
  listed : ∀ xs, inputIndices = some xs → ∀ x ∈ xs, ∃ i script,
    inputIndex? inputs.length x = some i ∧ (i, .ecdsa script) ∈ made
  only : ∀ xs, inputIndices = some xs → ∀ e ∈ made, ∃ x ∈ xs,
    inputIndex? inputs.length x = some e.1

/-- The input is one that the call is to sign: a multisig input for the key, and a listed one. -/
def Targeted (inputs : List MultisigInput) (pubkey : Bytes) (inputIndices : Option (List Js))
    (i : ℕ) : Prop :=
  (∃ inp, inputs[i]? = some inp ∧ isMultisigInputForKey L inp pubkey = .ok true) ∧
    ∀ xs, inputIndices = some xs → ∃ x ∈ xs, inputIndex? inputs.length x = some i

/-- Nothing in the call is refused. -/
structure Accepted (inputs : List MultisigInput) (pubkey : Bytes)
    (inputIndices : Option (List Js)) : Prop where
  consistent : ∀ inp ∈ inputs, (findInputPrevout L.toBitcoinJs inp.toEncodedInput).isOk = true
  targets : ∃ i, Targeted L inputs pubkey inputIndices i
  listed : ∀ xs, inputIndices = some xs → (xs.filterMap (inputIndex? inputs.length)).Nodup ∧
    ∀ x ∈ xs, ∃ i, inputIndex? inputs.length x = some i ∧ Targeted L inputs pubkey inputIndices i
  signable : ∀ i, Targeted L inputs pubkey inputIndices i →
    (psbtSignInput L inputs pubkey [] i).isSome = true

/-! ### The check of an input -/

variable {L}

/-- The library signs for the prevout that the program has verified. -/
theorem signedPrevout_eq_of_find {inp : MultisigInput} {prevout : Option TxOut}
    (h : findInputPrevout L.toBitcoinJs inp.toEncodedInput = .ok prevout) :
    signedPrevout L inp = prevout := by
  unfold findInputPrevout at h
  unfold signedPrevout
  cases hraw : inp.nonWitnessUtxo with
  | none =>
    simp only [hraw] at h
    cases h
    rfl
  | some raw =>
    simp only [hraw] at h
    cases htx : L.transactionFromBuffer raw with
    | none => simp [htx] at h
    | some prevTx =>
      simp only [htx] at h
      split_ifs at h with hhash
      cases hout : prevTx.outs[inp.index]? with
      | none => simp [hout] at h
      | some out =>
        simp only [hout] at h
        split_ifs at h
        cases h
        simp [htx, not_not.1 hhash, hout]

theorem scriptsCommitToPrevout_iff {inp : MultisigInput} {script : Bytes}
    (hscript : inp.witnessScript.or inp.redeemScript = some script) :
    scriptsCommitToPrevout L inp = .ok true ↔
      ∃ prevout, findInputPrevout L.toBitcoinJs inp.toEncodedInput = .ok (some prevout) ∧
        CommitsTo L prevout.script inp script := by
  unfold scriptsCommitToPrevout
  rw [Checks.bind_eq_ok]
  constructor
  · rintro ⟨prevout, hfind, h⟩
    cases prevout with
    | none => cases h
    | some prevout =>
      refine ⟨prevout, hfind, ?_⟩
      cases hw : inp.witnessScript with
      | none =>
        cases hr : inp.redeemScript with
        | none => simp [hw, hr] at hscript
        | some redeem =>
          have hs : redeem = script := by simpa [hw, hr] using hscript
          subst hs
          refine .p2sh hw hr ?_
          simpa [hw, hr, pure, Except.pure] using h
      | some witness =>
        have hs : witness = script := by simpa [hw] using hscript
        subst hs
        cases hr : inp.redeemScript with
        | none =>
          refine .p2wsh hw hr ?_
          simpa [hw, hr, pure, Except.pure] using h
        | some redeem =>
          have hboth : p2wshOutput L witness = some redeem ∧
              p2shOutput L redeem = some prevout.script := by
            simpa [hw, hr, pure, Except.pure] using h
          exact .p2shP2wsh hw hr hboth.1 hboth.2
  · rintro ⟨prevout, hfind, hcommits⟩
    refine ⟨some prevout, hfind, ?_⟩
    cases hcommits with
    | p2sh hw hr hs => simp [hw, hr, hs, pure, Except.pure]
    | p2wsh hw hr hs => simp [hw, hr, hs, pure, Except.pure]
    | p2shP2wsh hw hr hs hp => simp [hw, hr, hs, hp, pure, Except.pure]

theorem CommitsTo.script_eq {spent : Bytes} {inp : MultisigInput} {script : Bytes}
    (h : CommitsTo L spent inp script) : inp.witnessScript.or inp.redeemScript = some script := by
  cases h with
  | p2sh hw hr _ => simp [hw, hr]
  | p2wsh hw _ _ => simp [hw]
  | p2shP2wsh hw _ _ _ => simp [hw]

/-- **The check is the statement it stands for.** -/
theorem isMultisigInputForKey_iff {inp : MultisigInput} {pubkey : Bytes} {prevout : Option TxOut}
    (hfind : findInputPrevout L.toBitcoinJs inp.toEncodedInput = .ok prevout) :
    isMultisigInputForKey L inp pubkey = .ok true ↔ ∃ script, MultisigFor L inp pubkey script := by
  have hsigned := signedPrevout_eq_of_find hfind
  unfold isMultisigInputForKey
  cases hscript : inp.witnessScript.or inp.redeemScript with
  | none =>
    constructor
    · intro h; cases h
    · rintro ⟨script, ⟨_, _, hcommits⟩, _⟩
      rw [hcommits.script_eq] at hscript
      cases hscript
  | some script =>
    rw [Checks.bind_eq_ok]
    constructor
    · rintro ⟨commits, hcommits, h⟩
      cases commits with
      | false => cases h
      | true =>
        obtain ⟨out, hout, hc⟩ := (scriptsCommitToPrevout_iff hscript).1 hcommits
        rw [hfind] at hout
        cases hout
        refine ⟨script, ⟨out, hsigned, hc⟩, ?_⟩
        cases hkeys : p2ms L script with
        | none => simp [hkeys, pure, Except.pure] at h
        | some pubkeys =>
          refine ⟨pubkeys, rfl, ?_⟩
          simpa [hkeys, pure, Except.pure] using h
    · rintro ⟨script', ⟨out, hout, hc⟩, pubkeys, hkeys, hmem⟩
      have hs : script' = script := by
        have heq := hc.script_eq
        rw [hscript] at heq
        exact (Option.some.inj heq).symm
      subst hs
      refine ⟨true, (scriptsCommitToPrevout_iff hscript).2 ⟨out, ?_, hc⟩, ?_⟩
      · rw [hfind, ← hsigned, hout]
      · simp [hkeys, hmem, pure, Except.pure]

/-! ### The library's script route -/

theorem isP2SHScript_p2shOutput {redeem spent : Bytes} (h : p2shOutput L redeem = some spent) :
    isP2SHScript spent = true := by
  unfold p2shOutput at h
  split_ifs at h
  cases h
  have hlast : ([0xa9, 0x14] ++ (L.hash160 redeem).val ++ [0x87]).getLast? = some 0x87 :=
    List.getLast?_concat
  rw [isP2SHScript, hlast]
  simp [(L.hash160 redeem).property]

theorem isP2WSHScript_p2wshOutput {witness spent : Bytes} (h : p2wshOutput L witness = some spent) :
    isP2WSHScript spent = true ∧ isP2SHScript spent = false := by
  unfold p2wshOutput at h
  split_ifs at h
  cases h
  simp [isP2WSHScript, isP2SHScript]

/-- A bare multisig script starts with the number of signatures. -/
theorem head_of_p2ms {script : Bytes} {pubkeys : List Bytes} (h : p2ms L script = some pubkeys) :
    ∃ m rest, OP_RESERVED < m ∧ Script.decompile script = some (.op m :: rest) := by
  unfold p2ms at h
  obtain ⟨chunks, hchunks, h⟩ := Option.bind_eq_some_iff.1 h
  unfold p2msChunks at h
  split at h
  · next m rest =>
    split at h
    · split_ifs at h with hok
      exact ⟨m, rest, hok.2.1, hchunks⟩
    · cases h
  · cases h

/-- A script whose first element is a small number is no witness program of version 0. -/
theorem decompile_zero_cons {rest : Bytes} {chunks : List Chunk}
    (h : Script.decompile (0x00 :: rest) = some chunks) : chunks.head? = some (.op OP_0) := by
  have hstep : Script.decompile (0x00 :: rest) =
      (Script.decompileFrom rest.length rest).map (Chunk.op OP_0 :: ·) := by
    rw [Script.decompile, List.length_cons, Script.decompileFrom]
    rfl
  rw [hstep] at h
  obtain ⟨rest', -, rfl⟩ := Option.map_eq_some_iff.1 h
  rfl

theorem not_isP2WPKH_of_p2ms {script : Bytes} {pubkeys : List Bytes}
    (h : p2ms L script = some pubkeys) : isP2WPKH script = false := by
  obtain ⟨m, rest, hm, hdec⟩ := head_of_p2ms h
  by_contra htrue
  have hshape : script.length = 22 ∧ script.take 2 = [0x00, 0x14] := by
    simpa [isP2WPKH] using htrue
  cases script with
  | nil => simp at hshape
  | cons b script =>
    have hb : b = 0x00 := by
      have := congrArg List.head? hshape.2
      simpa using this
    subst hb
    have hhead := decompile_zero_cons hdec
    have hzero : m = OP_0 := by simpa using hhead
    rw [hzero] at hm
    exact absurd hm (by decide)

theorem psbtSignInput_eq_some {inputs : List MultisigInput} {pubkey : Bytes}
    {made : List (ℕ × Signature)} {i : ℕ} {sigs : List Signature} :
    psbtSignInput L inputs pubkey made i = some sigs ↔ (∀ e ∈ made, e.1 ≠ i) ∧
      ∃ inp, inputs[i]? = some inp ∧ (if isTaprootInput L inp then
        signTaprootInput L inputs inp pubkey else signScriptInput L inp pubkey) = some sigs := by
  unfold psbtSignInput
  rw [Option.bind_eq_some_iff]
  by_cases hmade : ∀ e ∈ made, e.1 ≠ i
  · have hany : made.any (fun e => e.1 == i) = false := by simpa using hmade
    rw [and_iff_right hmade]
    simp only [hany, Bool.false_eq_true, if_false]
  · have hany : made.any (fun e => e.1 == i) = true := by simpa using hmade
    constructor
    · rintro ⟨inp, -, h⟩
      rw [hany, if_pos rfl] at h
      cases h
    · rintro ⟨h, -⟩
      exact absurd h hmade

/-- **On the script route the library signs the script that the program has checked.** -/
theorem ecdsa_of_script_route {inputs : List MultisigInput} {inp : MultisigInput}
    {pubkey script : Bytes} {made : List (ℕ × Signature)} {i : ℕ} {sigs : List Signature}
    (hinp : inputs[i]? = some inp) (hfor : MultisigFor L inp pubkey script)
    (hroute : isTaprootInput L inp = false) (h : psbtSignInput L inputs pubkey made i = some sigs) :
    sigs = [.ecdsa script] := by
  obtain ⟨⟨prevout, hprevout, hcommits⟩, pubkeys, hkeys, -⟩ := hfor
  have hwpkh := not_isP2WPKH_of_p2ms hkeys
  -- whatever the library signs for the prevout is the script
  have hmeaningful {meaningful : Bytes} {type : ScriptType}
      (hm : getMeaningfulScript L prevout.script inp = some (meaningful, type)) :
      meaningful = script := by
    unfold getMeaningfulScript at hm
    cases hcommits with
    | p2sh hw hr hs =>
      simp only [isP2SHScript_p2shOutput hs, if_true, hr] at hm
      split_ifs at hm with hwsh
      · simp [hw] at hm
      · cases hm
        rfl
    | p2wsh hw hr hs =>
      obtain ⟨hwsh, hsh⟩ := isP2WSHScript_p2wshOutput hs
      simp only [hsh, Bool.false_eq_true, if_false, hwsh, if_true, hw] at hm
      split_ifs at hm
      cases hm
      rfl
    | p2shP2wsh hw hr hs hp =>
      simp only [isP2SHScript_p2shOutput hp, if_true, hr, (isP2WSHScript_p2wshOutput hs).1,
        hw] at hm
      split_ifs at hm
      cases hm
      rfl
  obtain ⟨inp', hinp', hsigs⟩ := psbtSignInput_eq_some.1 h |>.2
  rw [hinp] at hinp'
  cases hinp'
  rw [hroute, if_neg Bool.false_ne_true] at hsigs
  obtain ⟨⟨signed, located⟩, hhash, hsigs⟩ := Option.bind_eq_some_iff.1 hsigs
  dsimp only at hsigs
  split_ifs at hsigs
  cases hsigs
  unfold getHashForSig at hhash
  rw [hprevout, Option.bind_some] at hhash
  split at hhash
  · cases hhash
  -- the hash covers the script as it is, and not a template that replaces it
  split at hhash
  · cases hhash
  · next meaningful hm =>
    cases hhash
    rw [hmeaningful hm]
  · next meaningful hm =>
    cases hhash
    rw [hmeaningful hm]
  · next meaningful type _ _ hm =>
    obtain rfl := hmeaningful hm
    rw [hwpkh] at hhash
    simp only [Bool.false_eq_true, if_false] at hhash
    split_ifs at hhash
    cases hhash
    rfl

theorem signTaprootInput_eq_some {inputs : List MultisigInput} {inp : MultisigInput}
    {pubkey : Bytes} {sigs : List Signature}
    (h : signTaprootInput L inputs inp pubkey = some sigs) :
    sigs ≠ [] ∧ ∃ leaves : List TapLeaf,
      sigs = tapKeySignature L inp pubkey ++ leaves.map .tapLeaf := by
  unfold signTaprootInput at h
  split_ifs at h
  obtain ⟨leaves, -, h⟩ := Option.bind_eq_some_iff.1 h
  dsimp only at h
  split_ifs at h with hrefused
  cases h
  refine ⟨?_, leaves, rfl⟩
  intro hnil
  rw [List.append_eq_nil_iff, List.map_eq_nil_iff] at hnil
  exact hrefused (.inl hnil)

/-- On the taproot route no signature is over a script of the input. -/
theorem not_ecdsa_of_taproot {inputs : List MultisigInput} {inp : MultisigInput} {pubkey : Bytes}
    {made : List (ℕ × Signature)} {i : ℕ} {sigs : List Signature} (hinp : inputs[i]? = some inp)
    (hroute : isTaprootInput L inp = true) (h : psbtSignInput L inputs pubkey made i = some sigs)
    (script : Bytes) : .ecdsa script ∉ sigs := by
  obtain ⟨inp', hinp', hsigs⟩ := psbtSignInput_eq_some.1 h |>.2
  rw [hinp] at hinp'
  cases hinp'
  rw [hroute, if_pos rfl] at hsigs
  obtain ⟨-, leaves, rfl⟩ := signTaprootInput_eq_some hsigs
  rw [List.mem_append, List.mem_map]
  rintro (hkey | ⟨leaf, -, hleaf⟩)
  · unfold tapKeySignature at hkey
    split_ifs at hkey
    · simp at hkey
    · simp at hkey
  · cases hleaf

theorem psbtSignInput_ne_nil {inputs : List MultisigInput} {pubkey : Bytes}
    {made : List (ℕ × Signature)} {i : ℕ} {sigs : List Signature}
    (h : psbtSignInput L inputs pubkey made i = some sigs) : sigs ≠ [] := by
  obtain ⟨inp, -, hsigs⟩ := psbtSignInput_eq_some.1 h |>.2
  split_ifs at hsigs
  · exact (signTaprootInput_eq_some hsigs).1
  · obtain ⟨_, -, hsigs⟩ := Option.bind_eq_some_iff.1 hsigs
    dsimp only at hsigs
    split_ifs at hsigs
    cases hsigs
    exact List.cons_ne_nil _ _

/-! ### The run -/

/-- The signatures that an input gets when it is signed alone. -/
def signaturesOf (L : Signer Network) (inputs : List MultisigInput) (pubkey : Bytes) (i : ℕ) :
    List Signature :=
  (psbtSignInput L inputs pubkey [] i).getD []

theorem psbtSignInput_eq_some_iff {inputs : List MultisigInput} {pubkey : Bytes}
    {made : List (ℕ × Signature)} {i : ℕ} {sigs : List Signature} :
    psbtSignInput L inputs pubkey made i = some sigs ↔
      (∀ e ∈ made, e.1 ≠ i) ∧ psbtSignInput L inputs pubkey [] i = some sigs := by
  have halone : psbtSignInput L inputs pubkey [] i = some sigs ↔ _ := psbtSignInput_eq_some
  rw [psbtSignInput_eq_some, halone]
  simp

/-- **The run signs each target once, and each the way it is signed alone.** -/
theorem signTargets_ok_iff {inputs : List MultisigInput} {pubkey : Bytes} {targets : List ℕ}
    {made made' : List (ℕ × Signature)} :
    signTargets L inputs pubkey targets made = .ok made' ↔
      targets.Nodup ∧
      (∀ i ∈ targets, (psbtSignInput L inputs pubkey [] i).isSome = true ∧ ∀ e ∈ made, e.1 ≠ i) ∧
      made' = made ++ targets.flatMap fun i =>
        (signaturesOf L inputs pubkey i).map fun sig => (i, sig) := by
  induction targets generalizing made with
  | nil =>
    rw [signTargets]
    constructor
    · intro h
      cases h
      simp
    · rintro ⟨-, -, rfl⟩
      simp
  | cons i targets ih =>
    rw [signTargets]
    cases hsign : psbtSignInput L inputs pubkey made i with
    | none =>
      constructor
      · intro h; cases h
      · rintro ⟨-, hall, -⟩
        obtain ⟨hsome, hfresh⟩ := hall i List.mem_cons_self
        obtain ⟨sigs, hsigs⟩ := Option.isSome_iff_exists.1 hsome
        rw [psbtSignInput_eq_some_iff.2 ⟨hfresh, hsigs⟩] at hsign
        cases hsign
    | some sigs =>
      obtain ⟨hfresh, halone⟩ := psbtSignInput_eq_some_iff.1 hsign
      have hof : signaturesOf L inputs pubkey i = sigs := by rw [signaturesOf, halone]; rfl
      -- the input has a signature now, so no later target is the same input
      have hsplit (j : ℕ) : (∀ e ∈ made ++ sigs.map (fun sig => (i, sig)), e.1 ≠ j) ↔
          (∀ e ∈ made, e.1 ≠ j) ∧ i ≠ j := by
        obtain ⟨sig, hsig⟩ := List.exists_mem_of_ne_nil sigs (psbtSignInput_ne_nil halone)
        constructor
        · intro h
          refine ⟨fun e he => h e (List.mem_append_left _ he), ?_⟩
          exact h (i, sig) (List.mem_append_right _ (List.mem_map_of_mem hsig))
        · rintro ⟨h, hij⟩ e he
          rcases List.mem_append.1 he with he | he
          · exact h e he
          · obtain ⟨sig', -, rfl⟩ := List.mem_map.1 he
            exact hij
      dsimp only
      rw [ih, List.nodup_cons, List.forall_mem_cons, List.flatMap_cons, hof, halone,
        ← List.append_assoc]
      constructor
      · rintro ⟨hnodup, hall, rfl⟩
        refine ⟨⟨fun hi => ?_, hnodup⟩, ⟨⟨rfl, hfresh⟩, ?_⟩, rfl⟩
        · exact ((hsplit i).1 (hall i hi).2).2 rfl
        · intro j hj
          exact ⟨(hall j hj).1, ((hsplit j).1 (hall j hj).2).1⟩
      · rintro ⟨⟨hi, hnodup⟩, ⟨-, hall⟩, rfl⟩
        refine ⟨hnodup, fun j hj => ⟨(hall j hj).1, (hsplit j).2 ⟨(hall j hj).2, ?_⟩⟩, rfl⟩
        rintro rfl
        exact hi hj

/-! ### The targets -/

theorem assertConsistentPrevouts_eq_ok {inputs : List MultisigInput} :
    assertConsistentPrevouts L inputs = .ok () ↔
      ∀ inp ∈ inputs, (findInputPrevout L.toBitcoinJs inp.toEncodedInput).isOk = true := by
  unfold assertConsistentPrevouts
  rw [Checks.forM_eq_ok]
  refine forall₂_congr fun inp _ => ?_
  cases findInputPrevout L.toBitcoinJs inp.toEncodedInput with
  | error e => simp [Except.map, Except.isOk, Except.toBool]
  | ok prevout => simp [Except.map, Except.isOk, Except.toBool]

theorem exists_find_of_consistent {inp : MultisigInput}
    (h : (findInputPrevout L.toBitcoinJs inp.toEncodedInput).isOk = true) :
    ∃ prevout, findInputPrevout L.toBitcoinJs inp.toEncodedInput = .ok prevout := by
  cases hfind : findInputPrevout L.toBitcoinJs inp.toEncodedInput with
  | error e => rw [hfind] at h; cases h
  | ok prevout => exact ⟨prevout, rfl⟩

theorem inputIndex?_lt {n i : ℕ} {x : Js} (h : inputIndex? n x = some i) : i < n := by
  unfold inputIndex? at h
  split at h
  · split_ifs at h with hq
    cases h
    omega
  · cases h

theorem checkListed_eq_ok {inputs : List MultisigInput} {pubkey : Bytes} {x : Js} {i : ℕ} :
    checkListed L inputs pubkey x = .ok i ↔ inputIndex? inputs.length x = some i ∧
      ∃ inp, inputs[i]? = some inp ∧ isMultisigInputForKey L inp pubkey = .ok true := by
  unfold checkListed
  cases hx : inputIndex? inputs.length x with
  | none => simp
  | some j =>
    have hj := inputIndex?_lt hx
    simp only [List.getElem?_eq_getElem hj, Checks.bind_eq_ok, Option.some.injEq]
    constructor
    · rintro ⟨mine, hmine, h⟩
      cases mine with
      | false => cases h
      | true =>
        cases h
        exact ⟨rfl, _, List.getElem?_eq_getElem hj, hmine⟩
    · rintro ⟨rfl, inp, hinp, hmine⟩
      rw [List.getElem?_eq_getElem hj] at hinp
      cases hinp
      exact ⟨true, hmine, rfl⟩

theorem filterMap_of_forall₂ {α β : Type} {f : α → Option β} {l : List α} {bs : List β}
    (h : List.Forall₂ (fun a b => f a = some b) l bs) : l.filterMap f = bs := by
  induction h with
  | nil => rfl
  | cons hab _ ih => rw [List.filterMap_cons, hab, ih]

/-- The inputs found when none is listed are those of the key. -/
theorem mem_mine_iff {inputs : List MultisigInput} {pubkey : Bytes} {mine : List Bool}
    (h : (inputs.mapM fun inp => isMultisigInputForKey L inp pubkey) = .ok mine) (i : ℕ) :
    (i ∈ (List.range inputs.length).filter fun i => mine[i]? = some true) ↔
      ∃ inp, inputs[i]? = some inp ∧ isMultisigInputForKey L inp pubkey = .ok true := by
  have hall := Checks.mapM_eq_ok.1 h
  rw [List.mem_filter, List.mem_range]
  constructor
  · rintro ⟨hi, htrue⟩
    have hi' : i < mine.length := hall.length_eq ▸ hi
    have hget : mine[i] = true := by simpa [List.getElem?_eq_getElem hi'] using htrue
    refine ⟨inputs[i], List.getElem?_eq_getElem hi, ?_⟩
    rw [← hget]
    exact hall.get hi hi'
  · rintro ⟨inp, hinp, htrue⟩
    obtain ⟨hi, rfl⟩ := List.getElem?_eq_some_iff.1 hinp
    have hi' : i < mine.length := hall.length_eq ▸ hi
    have hget := hall.get hi hi'
    simp only [List.get_eq_getElem] at hget
    rw [htrue] at hget
    refine ⟨hi, ?_⟩
    rw [List.getElem?_eq_getElem hi', ← Except.ok.inj hget]
    simp

/-- The targets are the inputs that the call is to sign. -/
theorem multisigSigningTargets_spec {inputs : List MultisigInput} {pubkey : Bytes}
    {inputIndices : Option (List Js)} {targets : List ℕ}
    (h : multisigSigningTargets L inputs pubkey inputIndices = .ok targets) :
    targets ≠ [] ∧ (∀ i, i ∈ targets ↔ Targeted L inputs pubkey inputIndices i) ∧
      (inputIndices = none → targets.Nodup) ∧
      ∀ xs, inputIndices = some xs → targets = xs.filterMap (inputIndex? inputs.length) ∧
        ∀ x ∈ xs, ∃ i ∈ targets, inputIndex? inputs.length x = some i := by
  unfold multisigSigningTargets at h
  split at h
  · cases h
  · next xs hxs =>
    have hall := Checks.mapM_eq_ok.1 h
    have hmem : ∀ x ∈ xs, ∃ i ∈ targets, checkListed L inputs pubkey x = .ok i := by
      intro x hx
      obtain ⟨k, hk, rfl⟩ := List.mem_iff_getElem.1 hx
      have hk' : k < targets.length := hall.length_eq ▸ hk
      exact ⟨targets[k], List.getElem_mem hk', hall.get hk hk'⟩
    refine ⟨?_, fun i => ⟨fun hi => ?_, fun hi => ?_⟩,
      fun hnone => absurd hnone (Option.some_ne_none xs), ?_⟩
    · rintro rfl
      cases List.forall₂_nil_right_iff.1 hall
      exact hxs rfl
    · obtain ⟨x, hx, hcheck⟩ := Checks.exists_of_mem_mapM h hi
      obtain ⟨hindex, hmine⟩ := checkListed_eq_ok.1 hcheck
      refine ⟨hmine, ?_⟩
      rintro _ ⟨⟩
      exact ⟨x, hx, hindex⟩
    · obtain ⟨x, hx, hindex⟩ := hi.2 xs rfl
      obtain ⟨j, hj, hcheck⟩ := hmem x hx
      rw [(checkListed_eq_ok.1 hcheck).1] at hindex
      cases hindex
      exact hj
    · rintro _ ⟨⟩
      refine ⟨?_, fun x hx => ?_⟩
      · refine (filterMap_of_forall₂ (hall.imp fun _ _ hcheck => ?_)).symm
        exact (checkListed_eq_ok.1 hcheck).1
      · obtain ⟨i, hi, hcheck⟩ := hmem x hx
        exact ⟨i, hi, (checkListed_eq_ok.1 hcheck).1⟩
  · obtain ⟨mine, hmine, h⟩ := Checks.bind_eq_ok.1 h
    dsimp only at h
    split_ifs at h with hnil
    cases h
    refine ⟨hnil, fun i => ?_, fun _ => List.nodup_range.filter _, fun xs hxs => by cases hxs⟩
    rw [mem_mine_iff hmine]
    exact ⟨fun hi => ⟨hi, fun xs hxs => by cases hxs⟩, fun hi => hi.1⟩

theorem isMultisigInputForKey_isOk {inp : MultisigInput} (pubkey : Bytes)
    (h : (findInputPrevout L.toBitcoinJs inp.toEncodedInput).isOk = true) :
    (isMultisigInputForKey L inp pubkey).isOk = true := by
  obtain ⟨prevout, hfind⟩ := exists_find_of_consistent h
  have hcommits : ∃ b, scriptsCommitToPrevout L inp = .ok b := by
    unfold scriptsCommitToPrevout
    rw [hfind]
    cases prevout with
    | none => exact ⟨false, rfl⟩
    | some prevout =>
      cases inp.witnessScript <;> cases inp.redeemScript <;> exact ⟨_, rfl⟩
  obtain ⟨b, hb⟩ := hcommits
  unfold isMultisigInputForKey
  rw [hb]
  cases inp.witnessScript.or inp.redeemScript with
  | none => rfl
  | some script =>
    cases b with
    | false => rfl
    | true => cases hkeys : p2ms L script <;> simp only [hkeys, bind, Except.bind] <;> rfl

/-- Listed inputs that all qualify, or a qualifying input when none is listed, give targets. -/
theorem exists_targets {inputs : List MultisigInput} {pubkey : Bytes}
    {inputIndices : Option (List Js)} (h : Accepted L inputs pubkey inputIndices) :
    ∃ targets, multisigSigningTargets L inputs pubkey inputIndices = .ok targets ∧
      targets.Nodup := by
  obtain ⟨i, htarget⟩ := h.targets
  have hok : ∃ targets, multisigSigningTargets L inputs pubkey inputIndices = .ok targets := by
    cases inputIndices with
    | none =>
      obtain ⟨mine, hmine⟩ : ∃ mine,
          (inputs.mapM fun inp => isMultisigInputForKey L inp pubkey) = .ok mine :=
        Checks.exists_mapM_iff.2 fun inp hinp =>
          isMultisigInputForKey_isOk pubkey (h.consistent inp hinp)
      have hmem := (mem_mine_iff hmine i).2 htarget.1
      exact ⟨_, Checks.bind_eq_ok.2 ⟨mine, hmine, if_neg (List.ne_nil_of_mem hmem)⟩⟩
    | some xs =>
      obtain ⟨x, hx, -⟩ := htarget.2 xs rfl
      obtain ⟨targets, htargets⟩ : ∃ targets,
          xs.mapM (checkListed L inputs pubkey) = .ok targets := by
        rw [Checks.exists_mapM_iff]
        intro x hx
        obtain ⟨j, hj, htarget⟩ := (h.listed xs rfl).2 x hx
        rw [checkListed_eq_ok.2 ⟨hj, htarget.1⟩]
        rfl
      refine ⟨targets, ?_⟩
      unfold multisigSigningTargets
      split
      · next hnil =>
        cases hnil
        cases hx
      · next hxs =>
        cases hxs
        exact htargets
      · next hnone => cases hnone
  obtain ⟨targets, htargets⟩ := hok
  refine ⟨targets, htargets, ?_⟩
  obtain ⟨-, -, hnone, hsome⟩ := multisigSigningTargets_spec htargets
  cases inputIndices with
  | none => exact hnone rfl
  | some xs =>
    rw [(hsome xs rfl).1]
    exact (h.listed xs rfl).1

/-- **The call succeeds exactly when nothing in it is refused**, and then signs each target. -/
theorem signing_ok_iff {inputs : List MultisigInput} {pubkey : Bytes}
    {inputIndices : Option (List Js)} {made : List (ℕ × Signature)} :
    (do assertConsistentPrevouts L inputs
        let targets ← multisigSigningTargets L inputs pubkey inputIndices
        signTargets L inputs pubkey targets []) = .ok made ↔
      Accepted L inputs pubkey inputIndices ∧ ∃ targets,
        multisigSigningTargets L inputs pubkey inputIndices = .ok targets ∧
        made = targets.flatMap fun i =>
          (signaturesOf L inputs pubkey i).map fun sig => (i, sig) := by
  constructor
  · intro h
    obtain ⟨⟨⟩, hconsistent, h⟩ := Checks.bind_eq_ok.1 h
    obtain ⟨targets, htargets, hrun⟩ := Checks.bind_eq_ok.1 h
    obtain ⟨hnodup, hall, rfl⟩ := signTargets_ok_iff.1 hrun
    obtain ⟨hne, hmem, -, hsome⟩ := multisigSigningTargets_spec htargets
    refine ⟨⟨assertConsistentPrevouts_eq_ok.1 hconsistent, ?_, ?_, ?_⟩, targets, htargets, rfl⟩
    · obtain ⟨i, hi⟩ := List.exists_mem_of_ne_nil targets hne
      exact ⟨i, (hmem i).1 hi⟩
    · intro xs hxs
      obtain ⟨htargets, hlisted⟩ := hsome xs hxs
      refine ⟨htargets ▸ hnodup, fun x hx => ?_⟩
      obtain ⟨i, hi, hindex⟩ := hlisted x hx
      exact ⟨i, hindex, (hmem i).1 hi⟩
    · intro i hi
      exact (hall i ((hmem i).2 hi)).1
  · rintro ⟨haccepted, targets, htargets, rfl⟩
    obtain ⟨targets', htargets', hnodup⟩ := exists_targets haccepted
    rw [htargets] at htargets'
    cases htargets'
    obtain ⟨-, hmem, -, -⟩ := multisigSigningTargets_spec htargets
    refine Checks.bind_eq_ok.2 ⟨(), assertConsistentPrevouts_eq_ok.2 haccepted.consistent, ?_⟩
    refine Checks.bind_eq_ok.2 ⟨targets, htargets, signTargets_ok_iff.2 ⟨hnodup, ?_, rfl⟩⟩
    exact fun i hi => ⟨haccepted.signable i ((hmem i).1 hi), fun _ h => by cases h⟩

theorem signMultisigPsbt_eq {net : Network} {psbtHex wif : String}
    {inputIndices : Option (List Js)} {made : List (ℕ × Signature)} :
    signMultisigPsbt L net psbtHex wif inputIndices = .ok made ↔
      psbtHex ≠ "" ∧ wif ≠ "" ∧ ∃ pubkey inputs, L.publicKeyOfWIF wif net = some pubkey ∧
        L.multisigFromHex psbtHex net = some inputs ∧
        (do assertConsistentPrevouts L inputs
            let targets ← multisigSigningTargets L inputs pubkey inputIndices
            signTargets L inputs pubkey targets []) = .ok made := by
  unfold signMultisigPsbt
  by_cases hpsbt : psbtHex = ""
  · rw [if_pos hpsbt]
    exact ⟨(fun h => by cases h), fun h => absurd hpsbt h.1⟩
  by_cases hwif : wif = ""
  · rw [if_neg hpsbt, if_pos hwif]
    exact ⟨(fun h => by cases h), fun h => absurd hwif h.2.1⟩
  rw [if_neg hpsbt, if_neg hwif]
  cases hkey : L.publicKeyOfWIF wif net with
  | none =>
    constructor
    · intro h; cases h
    · rintro ⟨-, -, _, _, hkey, -⟩; cases hkey
  | some pubkey =>
    cases hinputs : L.multisigFromHex psbtHex net with
    | none =>
      constructor
      · intro h; cases h
      · rintro ⟨-, -, _, _, -, hinputs, -⟩; cases hinputs
    | some inputs =>
      constructor
      · intro h
        exact ⟨hpsbt, hwif, pubkey, inputs, rfl, rfl, h⟩
      · rintro ⟨-, -, _, _, hkey, hinputs, h⟩
        cases hkey
        cases hinputs
        exact h

/-! ### Scope -/

/-- **A multisig signer stays in scope exactly when no input it is to sign has a taproot field**:
the library signs such an input on its taproot route, over leaves that nothing has checked. -/
theorem signMultisigPsbt_scope_iff (L : Signer Network) (net : Network) (psbtHex wif : String)
    (inputIndices : Option (List Js)) :
    (∀ made, signMultisigPsbt L net psbtHex wif inputIndices = .ok made →
      ∃ pubkey inputs, L.publicKeyOfWIF wif net = some pubkey ∧
        L.multisigFromHex psbtHex net = some inputs ∧
        MultisigScope L inputs pubkey inputIndices made) ↔
    ∀ pubkey inputs, psbtHex ≠ "" → wif ≠ "" → L.publicKeyOfWIF wif net = some pubkey →
      L.multisigFromHex psbtHex net = some inputs → Accepted L inputs pubkey inputIndices →
      ∀ i inp, Targeted L inputs pubkey inputIndices i → inputs[i]? = some inp →
        isTaprootInput L inp = false := by
  constructor
  · intro hscope pubkey inputs hpsbt hwif hkey hinputs haccepted i inp htarget hinp
    obtain ⟨targets, htargets, hnodup⟩ := exists_targets haccepted
    obtain ⟨-, hmem, -, -⟩ := multisigSigningTargets_spec htargets
    obtain ⟨_, _, hkey', hinputs', hcovered, -, -⟩ := hscope _ (signMultisigPsbt_eq.2
      ⟨hpsbt, hwif, pubkey, inputs, hkey, hinputs,
        signing_ok_iff.2 ⟨haccepted, targets, htargets, rfl⟩⟩)
    rw [hkey] at hkey'
    rw [hinputs] at hinputs'
    cases hkey'
    cases hinputs'
    -- the target's signatures are among those made
    obtain ⟨sigs, hsigs⟩ := Option.isSome_iff_exists.1 (haccepted.signable i htarget)
    obtain ⟨sig, hsig⟩ := List.exists_mem_of_ne_nil sigs (psbtSignInput_ne_nil hsigs)
    have hof : signaturesOf L inputs pubkey i = sigs := by rw [signaturesOf, hsigs]; rfl
    obtain ⟨_, script, -, -, hecdsa⟩ := hcovered (i, sig) (List.mem_flatMap.2
      ⟨i, (hmem i).2 htarget, List.mem_map.2 ⟨sig, hof ▸ hsig, rfl⟩⟩)
    by_contra hroute
    rw [Bool.not_eq_false] at hroute
    have hsig' : Signature.ecdsa script ∈ sigs := hecdsa ▸ hsig
    exact not_ecdsa_of_taproot hinp hroute hsigs script hsig'
  · intro hplain made hmade
    obtain ⟨hpsbt, hwif, pubkey, inputs, hkey, hinputs, hrun⟩ := signMultisigPsbt_eq.1 hmade
    obtain ⟨haccepted, targets, htargets, rfl⟩ := signing_ok_iff.1 hrun
    obtain ⟨-, hmem, -, hsome⟩ := multisigSigningTargets_spec htargets
    -- each target gets one signature, over its multisig script
    have hone : ∀ i ∈ targets, ∃ inp script, inputs[i]? = some inp ∧
        MultisigFor L inp pubkey script ∧ signaturesOf L inputs pubkey i = [.ecdsa script] := by
      intro i hi
      have htarget := (hmem i).1 hi
      obtain ⟨inp, hinp, hmine⟩ := htarget.1
      obtain ⟨prevout, hfind⟩ :=
        exists_find_of_consistent (haccepted.consistent inp (List.mem_of_getElem? hinp))
      obtain ⟨script, hfor⟩ := (isMultisigInputForKey_iff hfind).1 hmine
      obtain ⟨sigs, hsigs⟩ := Option.isSome_iff_exists.1 (haccepted.signable i htarget)
      have hroute := hplain pubkey inputs hpsbt hwif hkey hinputs haccepted i inp htarget hinp
      refine ⟨inp, script, hinp, hfor, ?_⟩
      rw [signaturesOf, hsigs, Option.getD_some]
      exact ecdsa_of_script_route hinp hfor hroute hsigs
    refine ⟨pubkey, inputs, hkey, hinputs, ⟨?_, ?_, ?_⟩⟩
    · intro e he
      obtain ⟨i, hi, he⟩ := List.mem_flatMap.1 he
      obtain ⟨inp, script, hinp, hfor, hsigs⟩ := hone i hi
      rw [hsigs] at he
      obtain rfl := List.mem_singleton.1 he
      exact ⟨inp, script, hinp, hfor, rfl⟩
    · intro xs hxs x hx
      obtain ⟨i, hi, hindex⟩ := (hsome xs hxs).2 x hx
      obtain ⟨inp, script, -, -, hsigs⟩ := hone i hi
      refine ⟨i, script, hindex, List.mem_flatMap.2 ⟨i, hi, ?_⟩⟩
      rw [hsigs]
      exact List.mem_singleton_self _
    · intro xs hxs e he
      obtain ⟨i, hi, he⟩ := List.mem_flatMap.1 he
      obtain ⟨sig, -, rfl⟩ := List.mem_map.1 he
      exact ((hmem i).1 hi).2 xs hxs

/-! ### A leaf on a multisig input -/

/-- A public key. -/
def scopeKey : Bytes :=
  [0x02, 0x79, 0xbe, 0x66, 0x7e, 0xf9, 0xdc, 0xbb, 0xac, 0x55, 0xa0, 0x62, 0x95, 0xce, 0x87,
   0x0b, 0x07, 0x02, 0x9b, 0xfc, 0xdb, 0x2d, 0xce, 0x28, 0xd9, 0x59, 0xf2, 0x81, 0x5b, 0x16,
   0xf8, 0x17, 0x98]

/-- The multisig script of one key. -/
def scopeScript : Bytes := [0x51, 0x21] ++ scopeKey ++ [0x51, 0xae]

/-- The hash of that script. -/
def scopeDigest : Digest where
  bytes :=
    [0x28, 0x20, 0x53, 0x33, 0xdb, 0x92, 0x2f, 0x66, 0xe8, 0xa9, 0x41, 0xb4, 0xa3, 0x2d, 0x66,
     0xde, 0x5c, 0xea, 0x03, 0xd9, 0xcd, 0xa4, 0x6e, 0x3e, 0x66, 0x58, 0x93, 0x52, 0x72, 0xb9,
     0xb2, 0x4f]
  length_eq := by decide

/-- A leaf that lets the key spend alone. -/
def scopeLeaf : TapLeaf := ⟨0xc0, 0x20 :: scopeKey.drop 1 ++ [0xac]⟩

/-- A multisig input whose coordinator added the leaf. -/
def scopeInput : MultisigInput where
  hash := List.replicate 32 9
  index := 0
  witnessUtxo := some ⟨[0x00, 0x20] ++ scopeDigest.bytes, 10000⟩
  witnessScript := some scopeScript
  tapLeafScript := [scopeLeaf]

/-- The transaction as text. -/
def scopeHex : String :=
  "70736274ff01005202000000010909090909090909090909090909090909090909090909090909090909090909" ++
  "0000000000fdffffff012823000000000000160014080808080808080808080808080808080808080800000000" ++
  "0001012b102700000000000022002028205333db922f66e8a941b4a32d66de5cea03d9cda46e3e6658935272b9" ++
  "b24f01052551210279be667ef9dcbbac55a06295ce870b07029bfcdb2dce28d959f2815b16f8179851ae2215c0" ++
  "79be667ef9dcbbac55a06295ce870b07029bfcdb2dce28d959f2815b16f81798232079be667ef9dcbbac55a062" ++
  "95ce870b07029bfcdb2dce28d959f2815b16f81798acc00000"

/-- The key as text. -/
def scopeWif : String := "cMahea7zqjxrtgAbB7LSGbcQUr1uX1ojuat9jZodMN87JcbXMTcA"

/-- A library that knows the key, the script and the transaction. -/
def scopeSigner : Signer Unit where
  toBitcoinJs := sampleBitcoinJs
  multisigFromHex hex _ := if hex = scopeHex then some [scopeInput] else none
  publicKeyOfWIF wif _ := if wif = scopeWif then some scopeKey else none
  hash160 bytes := if bytes = scopeKey then
    ⟨[0x75, 0x1e, 0x76, 0xe8, 0x19, 0x91, 0x96, 0xd4, 0x54, 0x94, 0x1c, 0x45,
      0xd1, 0xb3, 0xa3, 0x23, 0xf1, 0x43, 0x3b, 0xd6], by decide⟩
    else ⟨List.replicate 20 0, by decide⟩
  sha256 bytes := if bytes = scopeScript then scopeDigest else plainHost.sha256 bytes
  p2shWraps _ := true
  p2wshWraps _ := true
  isPoint key := key == scopeKey
  isXOnlyPoint key := key == scopeKey.drop 1
  leafHash _ :=
    [0x76, 0x3e, 0x9d, 0xa0, 0x64, 0xb9, 0xdc, 0x04, 0x71, 0xfb, 0x0f, 0x3c, 0x8f, 0xa2, 0xc8,
     0x4b, 0x4b, 0x84, 0xd2, 0xca, 0x99, 0x24, 0x97, 0xc1, 0x2d, 0x22, 0x74, 0x38, 0x67, 0x95,
     0xaa, 0x8e]

/-- The input is the key's multisig input, and its one signature is over the leaf. -/
theorem leaf_signed_for_multisig : ¬ ∀ made,
    signMultisigPsbt scopeSigner () scopeHex scopeWif none = .ok made →
      ∃ pubkey inputs, scopeSigner.publicKeyOfWIF scopeWif () = some pubkey ∧
        scopeSigner.multisigFromHex scopeHex () = some inputs ∧
        MultisigScope scopeSigner inputs pubkey none made := by
  intro hall
  have hmade : signMultisigPsbt scopeSigner () scopeHex scopeWif none =
      .ok [(0, .tapLeaf scopeLeaf)] := by
    refine signMultisigPsbt_eq.2 ⟨by decide, by decide, scopeKey, [scopeInput],
      by simp [scopeSigner], by simp [scopeSigner], ?_⟩
    rfl
  obtain ⟨_, _, -, -, hcovered, -, -⟩ := hall _ hmade
  obtain ⟨_, _, -, -, hecdsa⟩ := hcovered _ (List.mem_singleton_self _)
  cases hecdsa

end XChainSdk
