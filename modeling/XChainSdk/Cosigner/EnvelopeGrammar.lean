import XChainSdk.Cosigner.ScriptCodec
import XChainSdk.Protocol.CarrierLimits

/-!
# The grammar of envelopes and its two readers

An envelope is judged twice: from its script when it is funded or cancelled, and from the
transaction when it is revealed.

* `envelopeChunks`, `buildEnvelopeScript` : the elements of an envelope, and its script.
* `decodeEnvelopeAction`, `extractEnvelopeActionString` : the two readers.
* `parseEnvelopeScript_eq_some` : the scripts that are envelopes.
* `envelope_grammar` : **an envelope is any spelling of a built one, both readers find the same
  action in it, and its role is told by what the transaction pays and spends**.
-/

namespace XChainSdk

open Hash

def OP_CHECKMULTISIG : ℕ := 0xae

/-! ### The grammar -/

/-- The elements of an envelope. -/
def envelopeChunks (pushes : List Bytes) (key : Bytes) : List Chunk :=
  .op OP_0 :: .op OP_IF :: .push ENVELOPE_MAGIC :: .push [ENVELOPE_FORMAT_V0] ::
    (pushes.map Chunk.push ++ [.op OP_ENDIF, .push key, .op OP_CHECKSIG])

/-- `buildEnvelopeScript`, from the pushes of the payload. -/
def buildEnvelopeScript (pushes : List Bytes) (key : Bytes) : Bytes :=
  Script.compile (envelopeChunks pushes key)

theorem filterMap_push? (pushes : List Bytes) :
    (pushes.map Chunk.push).filterMap Chunk.push? = pushes := by
  rw [List.filterMap_map]
  exact List.filterMap_some

/-- Elements that are pushes are pushes of something. -/
theorem map_push_of_forall {chunks : List Chunk} (h : ∀ c ∈ chunks, c.push?.isSome = true) :
    (chunks.filterMap Chunk.push?).map Chunk.push = chunks := by
  induction chunks with
  | nil => rfl
  | cons c chunks ih =>
    have hrest := ih fun d hd => h d (List.mem_cons_of_mem _ hd)
    cases c with
    | op code => exact absurd (h (.op code) List.mem_cons_self) (by simp [Chunk.push?])
    | push bytes => simpa [List.filterMap_cons, Chunk.push?] using hrest

theorem parseEnvelopeChunks_envelopeChunks {pushes : List Bytes} {key : Bytes} (h : pushes ≠ [])
    (hkey : key.length = 32) :
    parseEnvelopeChunks (envelopeChunks pushes key) = some ⟨pushes.flatten, key⟩ := by
  have hall : ∀ c ∈ pushes.map Chunk.push, c.push?.isSome = true := by
    intro c hc
    obtain ⟨p, -, rfl⟩ := List.mem_map.1 hc
    rfl
  have htake : (pushes.map Chunk.push ++ [Chunk.op OP_ENDIF, .push key, .op OP_CHECKSIG]).takeWhile
      (fun c => c.push?.isSome) = pushes.map Chunk.push := by
    rw [List.takeWhile_append_of_pos hall]
    simp [Chunk.push?]
  have hdrop : (pushes.map Chunk.push ++ [Chunk.op OP_ENDIF, .push key, .op OP_CHECKSIG]).dropWhile
      (fun c => c.push?.isSome) = [.op OP_ENDIF, .push key, .op OP_CHECKSIG] := by
    rw [List.dropWhile_append_of_pos hall]
    simp [Chunk.push?]
  simp only [parseEnvelopeChunks, envelopeChunks, htake, hdrop, filterMap_push?]
  simp [h, hkey]

/-- **The grammar is met by the elements of an envelope only.** -/
theorem parseEnvelopeChunks_eq_some {chunks : List Chunk} {e : ParsedEnvelope} :
    parseEnvelopeChunks chunks = some e ↔ ∃ pushes, pushes ≠ [] ∧
      chunks = envelopeChunks pushes e.checksigKey ∧ e.checksigKey.length = 32 ∧
      e.payload = pushes.flatten := by
  constructor
  · intro h
    unfold parseEnvelopeChunks at h
    split at h
    · next c0 c1 magic format rest =>
      have hsplit := List.takeWhile_append_dropWhile (p := fun c : Chunk => c.push?.isSome) (l := rest)
      have hall : ∀ c ∈ rest.takeWhile (fun c : Chunk => c.push?.isSome), c.push?.isSome = true :=
        fun c hc => @List.mem_takeWhile_imp _ (fun c : Chunk => c.push?.isSome) _ c hc
      simp only at h
      split at h
      · cases h
      · next c2 key c3 hdrop =>
        split_ifs at h with hgrammar
        obtain ⟨rfl, rfl, rfl, rfl, hne, rfl, hkey, rfl⟩ := hgrammar
        cases h
        refine ⟨_, ?_, ?_, hkey, rfl⟩
        · intro hnil
          rw [← map_push_of_forall hall, hnil] at hne
          exact hne rfl
        · rw [envelopeChunks, map_push_of_forall hall, ← hdrop, hsplit]
      · cases h
    · cases h
  · rintro ⟨pushes, hne, rfl, hkey, hpayload⟩
    rw [parseEnvelopeChunks_envelopeChunks hne hkey, ← hpayload]

/-! ### Scripts -/

/-- The library reads scripts as Bitcoin writes them. -/
def Bitcoin.ReadsScripts (B : Bitcoin) : Prop :=
  ∀ script, B.decompile script = Script.decompile script

theorem canonical_envelopeChunks {pushes : List Bytes} {key : Bytes} (hkey : key.length = 32) :
    (∀ c ∈ envelopeChunks pushes key, c.Canonical) ↔ ∀ p ∈ pushes, (Chunk.push p).Canonical := by
  have hfixed : (Chunk.op OP_0).Canonical ∧ (Chunk.op OP_IF).Canonical ∧
      (Chunk.push ENVELOPE_MAGIC).Canonical ∧ (Chunk.push [ENVELOPE_FORMAT_V0]).Canonical ∧
      (Chunk.op OP_ENDIF).Canonical ∧ (Chunk.op OP_CHECKSIG).Canonical := by
    unfold Chunk.Canonical
    decide
  have hpush : (Chunk.push key).Canonical := by
    refine ⟨?_, by rw [hkey]; decide⟩
    match key, hkey with
    | _ :: _ :: _, _ => rfl
  obtain ⟨h0, h1, h2, h3, h4, h5⟩ := hfixed
  simp only [envelopeChunks, List.forall_mem_cons, List.forall_mem_append, List.forall_mem_map, h0, h1,
    h2, h3, h4, h5, hpush, true_and, List.not_mem_nil, IsEmpty.forall_iff, implies_true, and_true]

theorem decompile_buildEnvelopeScript {pushes : List Bytes} {key : Bytes} (hkey : key.length = 32)
    (hpushes : ∀ p ∈ pushes, (Chunk.push p).Canonical) :
    Script.decompile (buildEnvelopeScript pushes key) = some (envelopeChunks pushes key) :=
  Script.decompile_compile ((canonical_envelopeChunks hkey).2 hpushes)

/-- **The scripts that are envelopes: those that read as a built one.** -/
theorem parseEnvelopeScript_eq_some {B : Bitcoin} (hB : B.ReadsScripts) {script : Bytes}
    {e : ParsedEnvelope} :
    parseEnvelopeScript B script = some e ↔ ∃ pushes, pushes ≠ [] ∧
      (∀ p ∈ pushes, (Chunk.push p).Canonical) ∧ e.checksigKey.length = 32 ∧
      e.payload = pushes.flatten ∧
      Script.decompile script = Script.decompile (buildEnvelopeScript pushes e.checksigKey) := by
  constructor
  · intro h
    unfold parseEnvelopeScript at h
    rw [hB script] at h
    split_ifs at h with hshort
    split at h
    · cases h
    · next chunks hchunks =>
      split_ifs at h with hfew
      obtain ⟨pushes, hne, rfl, hkey, hpayload⟩ := parseEnvelopeChunks_eq_some.1 h
      have hpushes := (canonical_envelopeChunks hkey).1 (Script.canonical_of_decompile hchunks).1
      refine ⟨pushes, hne, hpushes, hkey, hpayload, ?_⟩
      rw [hchunks, decompile_buildEnvelopeScript hkey hpushes]
  · rintro ⟨pushes, hne, hpushes, hkey, hpayload, hread⟩
    rw [decompile_buildEnvelopeScript hkey hpushes] at hread
    have hlen := (Script.canonical_of_decompile hread).2
    have hcount : 8 ≤ (envelopeChunks pushes e.checksigKey).length := by
      have hpos := List.length_pos_of_ne_nil hne
      simp only [envelopeChunks, List.length_cons, List.length_append, List.length_map,
        List.length_nil]
      omega
    unfold parseEnvelopeScript
    rw [if_neg (by omega), hB script, hread]
    simp only [not_lt.2 hcount, if_false]
    exact parseEnvelopeChunks_eq_some.2 ⟨pushes, hne, rfl, hkey, hpayload⟩

/-! ### The two readers -/

/-- `new TextDecoder('utf-8', { fatal: true }).decode`; a byte order mark is dropped. -/
def fatalUtf8 (bytes : Bytes) : Option String :=
  String.fromUTF8? ⟨(if [0xef, 0xbb, 0xbf].isPrefixOf bytes then bytes.drop 3 else bytes).toArray⟩

section Readers

variable (B : Bitcoin) {Action : Type} (judge : String → Except String Action)
  (inline : Psbt → Except String String)

/-- `decodeEnvelopeAction`: the action of an envelope script. -/
def decodeEnvelopeAction (script : Bytes) : Except String Action :=
  match parseEnvelopeScript B script with
  | none => .error "ENVELOPE_SCRIPT_INVALID"
  | some parsed =>
    if ENVELOPE_MAX_PAYLOAD < parsed.payload.length then .error "OVERSIZED"
    else match B.decompile parsed.payload with
      | some (.push bytes :: _) =>
        match fatalUtf8 bytes with
        | none => .error "NOT_UTF8"
        | some actionString => judge actionString
      | _ => .error "INNER_DECOMPILE_FAILED"

/-- An output that carries data of its own, or that a decoder reads as a carrier. -/
def isMixedCarrier (out : TxOut) : Bool :=
  match B.decompile out.script with
  | none => false
  | some chunks =>
    chunks.head? == some (.op OP_RETURN) || chunks.getLast? == some (.op OP_CHECKMULTISIG)

/-- The inputs that present an envelope. -/
def envelopeIndexes (psbt : Psbt) : List ℕ :=
  (List.range psbt.txInputs.length).filter fun i =>
    (psbt.txInputs[i]?.bind (envelopeLeafFromPsbtInput B)).isSome

/-- `extractEnvelopeActionString`: the action string of a reveal. -/
def extractEnvelopeActionString (psbt : Psbt) : Except String String :=
  if psbt.txInputs = [] then .error "NO_INPUTS"
  else match envelopeIndexes B psbt with
    | [] => .error "NO_ENVELOPE"
    | _ :: _ :: _ => .error "MULTI_ENVELOPE"
    | [first] =>
      if first ≠ 0 then .error "ENVELOPE_NOT_INPUT_ZERO"
      else if psbt.txOutputs.any (isMixedCarrier B) then .error "ENVELOPE_MIXED_CARRIER"
      else
        match (psbt.txInputs[0]?.bind (envelopeLeafFromPsbtInput B)).bind (parseEnvelopeScript B) with
        | none => .error "NO_ENVELOPE"
        | some leaf =>
          if ENVELOPE_MAX_PAYLOAD < leaf.payload.length then .error "OVERSIZED"
          else match B.decompile leaf.payload with
            | some (.push bytes :: _) =>
              match fatalUtf8 bytes with
              | none => .error "NOT_UTF8"
              | some actionString => .ok actionString
            | _ => .error "INNER_DECOMPILE_FAILED"

/-- `decodeActionFromPsbt`: the action of a transaction, from its envelope or from its data output. -/
def decodeActionFromPsbt (psbt : Psbt) : Except String Action :=
  let carriesEnvelope := psbt.txInputs.any fun inp => (envelopeLeafFromPsbtInput B inp).isSome
  match if carriesEnvelope then extractEnvelopeActionString B psbt else inline psbt with
  | .error reason => .error reason
  | .ok actionString => judge actionString

end Readers

variable {B : Bitcoin} {psbt : Psbt} {script : Bytes}

theorem envelopeLeaf_parses {inp : PsbtInput} (h : envelopeLeafFromPsbtInput B inp = some script) :
    ∃ e, parseEnvelopeScript B script = some e := by
  unfold envelopeLeafFromPsbtInput at h
  split at h
  · split_ifs at h
    obtain ⟨e, he, rfl⟩ := Option.map_eq_some_iff.1 h
    exact ⟨e, he⟩
  · cases h

/-- The first input presents an envelope. -/
def PresentsLeaf (B : Bitcoin) (psbt : Psbt) (script : Bytes) : Prop :=
  psbt.txInputs[0]?.bind (envelopeLeafFromPsbtInput B) = some script

/-- No other input presents an envelope, and no output is a carrier of its own. -/
def SoleCarrier (B : Bitcoin) (psbt : Psbt) : Prop :=
  envelopeIndexes B psbt = [0] ∧ psbt.txOutputs.any (isMixedCarrier B) = false

theorem PresentsLeaf.carries (h : PresentsLeaf B psbt script) :
    (psbt.txInputs.any fun inp => (envelopeLeafFromPsbtInput B inp).isSome) = true := by
  obtain ⟨inp, hinp, hleaf⟩ := Option.bind_eq_some_iff.1 h
  refine List.any_eq_true.2 ⟨inp, List.mem_of_getElem? hinp, ?_⟩
  rw [hleaf]
  rfl

/-- What the reader of a reveal finds is what the reader of the script finds. -/
theorem decodeActionFromPsbt_of_presents {Action : Type} (judge : String → Except String Action)
    (inline : Psbt → Except String String) (h : PresentsLeaf B psbt script) (hsole : SoleCarrier B psbt) :
    decodeActionFromPsbt B judge inline psbt = decodeEnvelopeAction B judge script := by
  obtain ⟨hindexes, hmixed⟩ := hsole
  obtain ⟨inp, hinp, hleaf⟩ := Option.bind_eq_some_iff.1 h
  obtain ⟨e, he⟩ := envelopeLeaf_parses hleaf
  have hne : psbt.txInputs ≠ [] := by
    rintro hnil
    rw [hnil] at hinp
    cases hinp
  have hleaf' : (psbt.txInputs[0]?.bind (envelopeLeafFromPsbtInput B)).bind (parseEnvelopeScript B) =
      some e := by rw [h, Option.bind_some, he]
  simp only [decodeActionFromPsbt, h.carries, if_true, extractEnvelopeActionString, hne, if_false,
    hindexes, ne_eq, not_true_eq_false, hmixed, Bool.false_eq_true, hleaf', decodeEnvelopeAction, he]
  split_ifs with hsize
  · rfl
  · rcases B.decompile e.payload with _ | (_ | ⟨_ | bytes, chunks⟩)
    · rfl
    · rfl
    · rfl
    · dsimp only
      cases fatalUtf8 bytes <;> rfl

/-- A transaction that mixes carriers has no action. -/
theorem soleCarrier_of_ok {Action : Type} {judge : String → Except String Action}
    {inline : Psbt → Except String String} {data : Action} (h : PresentsLeaf B psbt script)
    (hok : decodeActionFromPsbt B judge inline psbt = .ok data) : SoleCarrier B psbt := by
  simp only [decodeActionFromPsbt, h.carries, if_true] at hok
  split at hok
  · cases hok
  · next actionString hextract =>
    unfold extractEnvelopeActionString at hextract
    by_cases hne : psbt.txInputs = []
    · rw [if_pos hne] at hextract
      cases hextract
    rw [if_neg hne] at hextract
    unfold SoleCarrier
    generalize envelopeIndexes B psbt = indexes at hextract ⊢
    rcases indexes with _ | ⟨first, _ | ⟨second, rest⟩⟩
    · cases hextract
    · by_cases hzero : first = 0
      · by_cases hmixed : psbt.txOutputs.any (isMixedCarrier B) = true
        · simp [hzero, hmixed] at hextract
        · exact ⟨by rw [hzero], by simpa using hmixed⟩
      · simp [hzero] at hextract
    · cases hextract

/-! ### Roles -/

variable {commit : EnvelopeCommit}

/-- The first input spends the commit output. -/
def SpendsCommit (psbt : Psbt) (commit : EnvelopeCommit) : Prop :=
  prevoutScript psbt 0 = some commit.output

/-- The roles exclude one another: each is told by what the first input spends and presents, and by
what the outputs pay. -/
theorem classifyEnvelopeRole_iff (B : Bitcoin) (psbt : Psbt) (commit : EnvelopeCommit) :
    (classifyEnvelopeRole B psbt commit = some .commit ↔ ¬ SpendsCommit psbt commit ∧
      ∃ out ∈ psbt.txOutputs, out.script = commit.output) ∧
    (classifyEnvelopeRole B psbt commit = some .reveal ↔ SpendsCommit psbt commit ∧
      PresentsLeaf B psbt commit.script) ∧
    (classifyEnvelopeRole B psbt commit = some .cancel ↔ SpendsCommit psbt commit ∧
      ∀ script, ¬ PresentsLeaf B psbt script) := by
  have hhead : psbt.txInputs.head?.bind (envelopeLeafFromPsbtInput B) =
      psbt.txInputs[0]?.bind (envelopeLeafFromPsbtInput B) := by rw [List.head?_eq_getElem?]
  unfold classifyEnvelopeRole SpendsCommit PresentsLeaf
  rw [hhead]
  by_cases hspends : prevoutScript psbt 0 = some commit.output
  · simp only [hspends, if_true, not_true_eq_false, false_and, true_and]
    cases psbt.txInputs[0]?.bind (envelopeLeafFromPsbtInput B) with
    | none => simp
    | some script => by_cases hs : script = commit.script <;> simp [hs]
  · simp only [hspends, if_false, not_false_eq_true, true_and, false_and]
    by_cases hpays : ∃ out ∈ psbt.txOutputs, out.script = commit.output
    · simp [hpays]
    · simp [hpays]

/-! ### The envelope -/

/-- **An envelope is any spelling of a built one.**  Its payload is what was pushed, its action is
the same whether the script or the transaction is read, and its role is told by what the
transaction pays and spends. -/
theorem envelope_grammar (B : Bitcoin) (hB : B.ReadsScripts) :
    (∀ script e, parseEnvelopeScript B script = some e ↔ ∃ pushes, pushes ≠ [] ∧
      (∀ p ∈ pushes, (Chunk.push p).Canonical) ∧ e.checksigKey.length = 32 ∧
      e.payload = pushes.flatten ∧
      Script.decompile script = Script.decompile (buildEnvelopeScript pushes e.checksigKey)) ∧
    (∀ (Action : Type) (judge : String → Except String Action)
      (inline : Psbt → Except String String) psbt script, PresentsLeaf B psbt script →
        (SoleCarrier B psbt → decodeActionFromPsbt B judge inline psbt =
          decodeEnvelopeAction B judge script) ∧
        ∀ data, decodeActionFromPsbt B judge inline psbt = .ok data →
          decodeEnvelopeAction B judge script = .ok data) ∧
    ∀ psbt commit,
      (classifyEnvelopeRole B psbt commit = some .commit ↔ ¬ SpendsCommit psbt commit ∧
        ∃ out ∈ psbt.txOutputs, out.script = commit.output) ∧
      (classifyEnvelopeRole B psbt commit = some .reveal ↔ SpendsCommit psbt commit ∧
        PresentsLeaf B psbt commit.script) ∧
      (classifyEnvelopeRole B psbt commit = some .cancel ↔ SpendsCommit psbt commit ∧
        ∀ script, ¬ PresentsLeaf B psbt script) := by
  refine ⟨fun script e => parseEnvelopeScript_eq_some hB, ?_, classifyEnvelopeRole_iff B⟩
  intro Action judge inline psbt script h
  refine ⟨decodeActionFromPsbt_of_presents judge inline h, fun data hok => ?_⟩
  rw [← decodeActionFromPsbt_of_presents judge inline h (soleCarrier_of_ok h hok), hok]

/-- A library that reads scripts, and does nothing else. -/
def scriptBitcoin : Bitcoin where
  decompile := Script.decompile
  psbtFromHex _ := none
  getId _ := none
  p2tr _ _ := none
  taggedHash _ _ := []
  hashForWitnessV1 _ _ _ _ := none
  deterministicSign _ _ _ := none

/-- The envelope of a payload that pushes `AB`. -/
def builtScript : Bytes := buildEnvelopeScript [[0x02, 0x41, 0x42]] (List.replicate 32 7)

/-- The commit output of that envelope. -/
def builtCommit : EnvelopeCommit where
  script := builtScript
  output := [0x51, 0x20]
  tweak := []
  leafHash := []
  payload := [0x02, 0x41, 0x42]

/-- A transaction that spends the commit output and presents the envelope. -/
def builtReveal : Psbt where
  version := 2
  locktime := 0
  txInputs := [{
    hash := []
    index := 0
    sequence := 0
    witnessUtxo := some ⟨[0x51, 0x20], 1000⟩
    tapLeafScript := [⟨TAPROOT_LEAF_VERSION.toNat, builtScript⟩] }]
  txOutputs := [⟨[0x51], 500⟩]

theorem envelope_grammar_built :
    parseEnvelopeScript scriptBitcoin builtScript =
        some ⟨[0x02, 0x41, 0x42], List.replicate 32 7⟩ ∧
      decodeActionFromPsbt scriptBitcoin Except.ok (fun _ => .error "NO_DATA") builtReveal =
        decodeEnvelopeAction scriptBitcoin Except.ok builtScript ∧
      decodeEnvelopeAction scriptBitcoin Except.ok builtScript = .ok "AB" ∧
      classifyEnvelopeRole scriptBitcoin builtReveal builtCommit = some .reveal := by
  have h := envelope_grammar scriptBitcoin fun _ => rfl
  have hpresents : PresentsLeaf scriptBitcoin builtReveal builtScript := by rfl
  refine ⟨(h.1 _ _).2 ⟨[[0x02, 0x41, 0x42]], by simp, by simp [Chunk.Canonical, Script.asMinimalOP],
    by simp, rfl, rfl⟩, (h.2.1 _ _ _ _ _ hpresents).1 ⟨by rfl, by rfl⟩, by decide +kernel,
    (h.2.2 _ _).2.1.2 ⟨by rfl, hpresents⟩⟩

/-- An envelope whose first push has a longer spelling than the builder's, and a built one whose
payload is written as an opcode. -/
theorem envelope_not_built :
    (∃ e, parseEnvelopeScript scriptBitcoin
      ([0x00, 0x63, 0x4c, 0x04, 0x58, 0x43, 0x48, 0x4e, 0x01, 0x00, 0x02, 0x41, 0x42, 0x68, 0x20] ++
        List.replicate 32 7 ++ [0xac]) = some e) ∧
    (∀ pushes key, buildEnvelopeScript pushes key ≠
      [0x00, 0x63, 0x4c, 0x04, 0x58, 0x43, 0x48, 0x4e, 0x01, 0x00, 0x02, 0x41, 0x42, 0x68, 0x20] ++
        List.replicate 32 7 ++ [0xac]) ∧
    parseEnvelopeScript scriptBitcoin (buildEnvelopeScript [[0x05]] (List.replicate 32 7)) = none := by
  refine ⟨⟨⟨[0x41, 0x42], List.replicate 32 7⟩, by rfl⟩, ?_, by rfl⟩
  intro pushes key h
  have hthird := congrArg (fun script : Bytes => script[2]?) h
  simp [buildEnvelopeScript, envelopeChunks, Script.compile, Script.compileChunk, Script.asMinimalOP,
    Script.pushdataEncode, ENVELOPE_MAGIC, OP_PUSHDATA1] at hthird

end XChainSdk
