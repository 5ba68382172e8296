import XChainSdk.Carrier.SessionSafety

/-!
# The cache of spendable outputs

The cache holds the outputs that the tracker listed last, the change that was registered since, and
the outpoints that were spent.  Answers of the tracker come at any time and in any order.

* `UTXOCache` : the cache of any address, and `SessionCache.toClass` : the one that the cache of a
  session is, with the same calls.
* `cacheStep` : calls of the cache and answers of the tracker.
* `CarefulCache` : what a step needs for its reads to be safe.
* `speculativeCache_safe` : **after a run of such steps a read has no spent outpoint, no outpoint
  twice and only outputs of the cache's address**.
-/

namespace XChainSdk

open Js

/-- `UTXOCache`, with the address that it was refreshed for. -/
structure UTXOCache where
  utxos : List Js := []
  spent : List String := []
  speculative : List Js := []
  address : Option String := none
  stale : Bool := true

/-- The outpoints of a list of outputs. -/
def outpointKeys (us : List Js) : List String := us.filterMap cachedKey

namespace UTXOCache

/-- `refresh` before the tracker is asked; another address clears what is known of spends and
change. -/
def startRefresh (c : UTXOCache) (address : String) : UTXOCache :=
  if c.address = some address then c
  else { c with address := some address, spent := [], speculative := [] }

/-- `refresh` after the tracker has answered; a nullish entry throws. -/
def finishRefresh (c : UTXOCache) (answer : Js) : UTXOCache :=
  let utxos := trackedList answer
  let c := { c with utxos, stale := false }
  if utxos.any isNullish then c
  else
    let speculative := c.speculative.filter fun u =>
      !(cachedKey u).any fun key => (outpointKeys utxos).contains key || c.spent.contains key
    { c with speculative }

/-- `this._utxos.concat(this._speculative)` -/
def entries (c : UTXOCache) : List Js := c.utxos ++ c.speculative

/-- `getAvailable`; a nullish entry throws. -/
def getAvailable (c : UTXOCache) : Option (List Js) :=
  if c.entries.any isNullish then none
  else some (c.entries.filter fun u => !(cachedKey u).any c.spent.contains)

/-- The outpoints that `markSpent` adds, up to an input that is nullish. -/
def markedKeys : List Js → List String
  | [] => []
  | input :: inputs =>
    match cachedKey input with
    | none => []
    | some key => key :: markedKeys inputs

/-- `markSpent` -/
def markSpent (c : UTXOCache) (inputs : List Js) : UTXOCache :=
  { c with spent := (markedKeys inputs).reverse ++ c.spent }

/-- `addSpeculative` takes an output that has a transaction. -/
def registers (u : Js) : Bool := u.truthy && (u.field "txid").truthy

/-- `addSpeculative` -/
def addSpeculative (c : UTXOCache) (u : Js) : UTXOCache :=
  if !registers u || (cachedKey u).any (outpointKeys c.speculative).contains then c
  else { c with speculative := c.speculative ++ [u] }

/-- `invalidate` -/
def invalidate (c : UTXOCache) : UTXOCache :=
  { c with utxos := [], spent := [], speculative := [], stale := true }

end UTXOCache

/-! ### The cache of a session -/

/-- The cache of a session, with the session's address. -/
def SessionCache.toClass (address : String) (c : SessionCache) : UTXOCache where
  utxos := c.utxos
  spent := c.spent
  speculative := c.speculative.map Utxo.entry
  address := if c.addressed then some address else none
  stale := c.stale

section Session

variable (address : String) (c : SessionCache)

theorem outpointKeys_entries (us : List Utxo) :
    outpointKeys (us.map Utxo.entry) = us.map fun u => u.outpoint.key := by
  induction us with
  | nil => rfl
  | cons u us ih =>
    rw [List.map_cons, outpointKeys, List.filterMap_cons, cachedKey_entry, ← outpointKeys, ih]
    rfl

theorem isNullish_entry (u : Utxo) : u.entry.isNullish = false := rfl

theorem SessionCache.toClass_startRefresh :
    c.startRefresh.toClass address = (c.toClass address).startRefresh address := by
  rw [SessionCache.startRefresh, UTXOCache.startRefresh]
  cases haddressed : c.addressed with
  | true => simp [SessionCache.toClass, haddressed]
  | false => simp [SessionCache.toClass, haddressed]

theorem SessionCache.toClass_finishRefresh (answer : Js) :
    (c.finishRefresh answer).1.toClass address = (c.toClass address).finishRefresh answer := by
  simp only [SessionCache.finishRefresh, UTXOCache.finishRefresh]
  split_ifs with hnull
  · rfl
  · simp only [SessionCache.toClass, List.filter_map, outpointKeys]
    congr 2
    refine List.filter_congr fun u _ => ?_
    simp [cachedKey_entry]

theorem SessionCache.toClass_getAvailable :
    (c.toClass address).getAvailable = c.getAvailable.map (List.map CacheEntry.entry) := by
  have hentries : (c.toClass address).entries = c.entries.map CacheEntry.entry := by
    simp [UTXOCache.entries, SessionCache.toClass, SessionCache.entries, Function.comp_def,
      CacheEntry.entry]
  have hnull : (c.toClass address).entries.any isNullish = c.utxos.any isNullish := by
    simp [UTXOCache.entries, SessionCache.toClass, isNullish_entry]
  rw [UTXOCache.getAvailable, SessionCache.getAvailable, hnull]
  split_ifs
  · rfl
  · rw [Option.map_some, hentries, List.filter_map]
    rfl

/-- What is spent is a set, in whatever order it is kept. -/
theorem SessionCache.toClass_markSpent (inputs : List Outpoint) :
    (c.toClass address).markSpent (inputs.map Outpoint.entry) =
      { (c.markSpent inputs).toClass address with
        spent := (inputs.map Outpoint.key).reverse ++ c.spent } := by
  have hmarked : UTXOCache.markedKeys (inputs.map Outpoint.entry) = inputs.map Outpoint.key := by
    induction inputs with
    | nil => rfl
    | cons o inputs ih =>
      have hkey : cachedKey o.entry = some o.key := by
        have htxid : o.entry.get "txid" = some (str o.txid) := rfl
        have hvout : o.entry.get "vout" = some (num (.fin o.vout)) := rfl
        simp [cachedKey, htxid, hvout, Outpoint.key, toText]
      rw [List.map_cons, UTXOCache.markedKeys, hkey, List.map_cons, ← ih]
  rw [UTXOCache.markSpent, hmarked]
  rfl

theorem SessionCache.toClass_addSpeculative (u : Utxo) :
    (c.addSpeculative u).toClass address = (c.toClass address).addSpeculative u.entry := by
  have htxid : u.entry.field "txid" = str u.outpoint.txid := rfl
  have htruthy : u.entry.truthy = true := rfl
  simp only [SessionCache.addSpeculative, UTXOCache.addSpeculative, UTXOCache.registers, htxid,
    htruthy, cachedKey_entry, Option.any_some]
  have hkeys : outpointKeys (c.toClass address).speculative =
      c.speculative.map fun v => v.outpoint.key := outpointKeys_entries _
  have hempty : (!(true && (str u.outpoint.txid).truthy)) = decide (u.outpoint.txid = "") := by
    by_cases h : u.outpoint.txid = ""
    · simp [h, truthy]
    · simp [h, truthy]
  rw [hkeys, hempty]
  split_ifs
  · rfl
  · simp [SessionCache.toClass]

end Session

/-! ### Runs of a cache -/

/-- A cache with the refreshes that are not answered. -/
structure CacheState where
  cache : UTXOCache := {}
  /-- the addresses of the refreshes in flight -/
  inFlight : List String := []
  /-- every outpoint that was ever marked spent -/
  marked : List String := []

inductive CacheEvent where
  /-- a refresh starts and asks the tracker -/
  | refresh (address : String)
  /-- one of the refreshes in flight is answered, or fails -/
  | replied (i : ℕ) (answer : Option Js)
  | markSpent (inputs : List Js)
  | addSpeculative (utxo : Js)
  | invalidate

/-- A step of the cache. -/
def cacheStep (s : CacheState) : CacheEvent → CacheState
  | .refresh address =>
    { s with cache := s.cache.startRefresh address, inFlight := s.inFlight ++ [address] }
  | .replied i answer =>
    if s.inFlight.length ≤ i then s
    else
      let s := { s with inFlight := s.inFlight.eraseIdx i }
      match answer with
      | none => s
      | some answer => { s with cache := s.cache.finishRefresh answer }
  | .markSpent inputs =>
    { s with
      cache := s.cache.markSpent inputs
      marked := (UTXOCache.markedKeys inputs).reverse ++ s.marked }
  | .addSpeculative utxo => { s with cache := s.cache.addSpeculative utxo }
  | .invalidate => { s with cache := s.cache.invalidate }

def cacheRun (s : CacheState) (es : List CacheEvent) : CacheState := es.foldl cacheStep s

section Safety

-- `owner` tells the address that an outpoint pays
variable (owner : String → String)

/-- An outpoint that may enter the cache: it is of the cache's address, and the cache has not
forgotten that it was marked spent. -/
def Enters (s : CacheState) (key : String) : Prop :=
  s.cache.address = some (owner key) ∧ (key ∈ s.marked → key ∈ s.cache.spent)

/-- What a step needs.  Another address is taken up with an empty view; an answer lists outputs of
the cache's address, each once; registered change is of the address and not in the view yet. -/
def CarefulCache (s : CacheState) : CacheEvent → Prop
  | .refresh address => s.cache.address = some address ∨ s.cache.utxos = []
  | .replied i (some answer) => i < s.inFlight.length →
    (outpointKeys (trackedList answer)).Nodup ∧
      ∀ key ∈ outpointKeys (trackedList answer), Enters owner s key
  | .addSpeculative utxo => UTXOCache.registers utxo = true → ∀ key, cachedKey utxo = some key →
    Enters owner s key ∧ (key ∈ outpointKeys s.cache.utxos → key ∈ s.cache.spent)
  | _ => True

/-- What a read returns is safe: nothing that was ever marked spent, nothing twice, and only outputs
of the address. -/
def SafeRead (s : CacheState) : Prop :=
  ∀ available, s.cache.getAvailable = some available → (outpointKeys available).Nodup ∧
    ∀ u ∈ available, ∃ key, cachedKey u = some key ∧ key ∉ s.marked ∧
      s.cache.address = some (owner key)

/-- What careful steps keep.  A view with a nullish entry is not merged, and not read either. -/
structure OutpointsInv (s : CacheState) : Prop where
  owned : ∀ key ∈ outpointKeys s.cache.entries, s.cache.address = some (owner key)
  remembered : ∀ key ∈ outpointKeys s.cache.entries, key ∈ s.marked → key ∈ s.cache.spent
  utxos_nodup : (outpointKeys s.cache.utxos).Nodup
  speculative_nodup : (outpointKeys s.cache.speculative).Nodup
  overlap : s.cache.utxos.any isNullish = false → ∀ key ∈ outpointKeys s.cache.speculative,
    key ∈ outpointKeys s.cache.utxos → key ∈ s.cache.spent

variable {owner} {s : CacheState}

/-- A cache without outputs. -/
theorem outpointsInv_of_empty (h : s.cache.entries = []) : OutpointsInv owner s := by
  obtain ⟨hutxos, hspeculative⟩ := List.append_eq_nil_iff.1 h
  exact
    { owned := by simp [h, outpointKeys]
      remembered := by simp [h, outpointKeys]
      utxos_nodup := by simp [hutxos, outpointKeys]
      speculative_nodup := by simp [hspeculative, outpointKeys]
      overlap := by simp [hspeculative, outpointKeys] }

theorem exists_cachedKey {u : Js} (h : u.isNullish = false) : ∃ key, cachedKey u = some key := by
  cases u with
  | undefined | null => cases h
  | _ => exact ⟨_, rfl⟩

theorem mem_outpointKeys {us : List Js} {key : String} :
    key ∈ outpointKeys us ↔ ∃ u ∈ us, cachedKey u = some key := List.mem_filterMap

theorem outpointKeys_append (us vs : List Js) :
    outpointKeys (us ++ vs) = outpointKeys us ++ outpointKeys vs := List.filterMap_append ..

theorem outpointKeys_filter_sublist (p : Js → Bool) (us : List Js) :
    (outpointKeys (us.filter p)).Sublist (outpointKeys us) :=
  List.Sublist.filterMap _ List.filter_sublist

/-- A read of a cache that meets the invariant is safe. -/
theorem OutpointsInv.safe (h : OutpointsInv owner s) : SafeRead owner s := by
  intro available hread
  rw [UTXOCache.getAvailable] at hread
  split_ifs at hread with hnull
  rw [Bool.not_eq_true] at hnull
  obtain rfl := Option.some.inj hread
  have hmerged : s.cache.utxos.any isNullish = false := by
    rw [UTXOCache.entries, List.any_append, Bool.or_eq_false_iff] at hnull
    exact hnull.1
  refine ⟨?_, ?_⟩
  · rw [UTXOCache.entries, List.filter_append, outpointKeys_append]
    refine List.nodup_append.2 ⟨?_, ?_, ?_⟩
    · exact (outpointKeys_filter_sublist _ _).nodup h.utxos_nodup
    · exact (outpointKeys_filter_sublist _ _).nodup h.speculative_nodup
    · intro key hkey key' hkey' heq
      subst heq
      -- an outpoint of both lists is spent, and a spent one is filtered out
      have hutxo := (outpointKeys_filter_sublist _ _).subset hkey
      obtain ⟨v, hv, hvkey⟩ := mem_outpointKeys.1 hkey'
      obtain ⟨hv, hfree⟩ := List.mem_filter.1 hv
      have hspent := h.overlap hmerged key (mem_outpointKeys.2 ⟨v, hv, hvkey⟩) hutxo
      simp [hvkey, hspent] at hfree
  · intro u hu
    obtain ⟨hu, hfree⟩ := List.mem_filter.1 hu
    have hdefined : u.isNullish = false := by
      simpa using List.any_eq_false.1 hnull u hu
    obtain ⟨key, hkey⟩ := exists_cachedKey hdefined
    have hmem := mem_outpointKeys.2 ⟨u, hu, hkey⟩
    refine ⟨key, hkey, fun hmarked => ?_, h.owned key hmem⟩
    have hspent := h.remembered key hmem hmarked
    simp [hkey, hspent] at hfree

/-! ### What each step keeps -/

/-- An answer of the tracker. -/
theorem OutpointsInv.replied {answer : Js} {inFlight : List String} (h : OutpointsInv owner s)
    (hnodup : (outpointKeys (trackedList answer)).Nodup)
    (henters : ∀ key ∈ outpointKeys (trackedList answer), Enters owner s key) :
    OutpointsInv owner ⟨s.cache.finishRefresh answer, inFlight, s.marked⟩ := by
  have hold : ∀ key ∈ outpointKeys s.cache.speculative, key ∈ outpointKeys s.cache.entries := by
    intro key hkey
    rw [UTXOCache.entries, outpointKeys_append]
    exact List.mem_append_right _ hkey
  -- whatever is kept of the registered change, the entries are listed or were there before
  have hentries : ∀ speculative, (outpointKeys speculative).Sublist
      (outpointKeys s.cache.speculative) → ∀ key, key ∈ outpointKeys (trackedList answer ++
        speculative) → Enters owner s key := by
    intro speculative hsub key hkey
    rw [outpointKeys_append, List.mem_append] at hkey
    rcases hkey with hkey | hkey
    · exact henters key hkey
    · have hkey := hold key (hsub.subset hkey)
      exact ⟨h.owned key hkey, h.remembered key hkey⟩
  rw [UTXOCache.finishRefresh]
  split_ifs with hnull
  · have hsame := hentries _ (List.Sublist.refl _)
    refine ⟨fun key hkey => (hsame key hkey).1, fun key hkey => (hsame key hkey).2, hnodup,
      h.speculative_nodup, fun hmerged => ?_⟩
    rw [hnull] at hmerged
    cases hmerged
  · have hsub := outpointKeys_filter_sublist (fun u => !(cachedKey u).any fun key =>
      (outpointKeys (trackedList answer)).contains key || s.cache.spent.contains key)
      s.cache.speculative
    have hkept := hentries _ hsub
    refine ⟨fun key hkey => (hkept key hkey).1, fun key hkey => (hkept key hkey).2, hnodup,
      hsub.nodup h.speculative_nodup, fun _ key hkey hconfirmed => ?_⟩
    -- what is confirmed has left the registered change
    obtain ⟨u, hu, hukey⟩ := mem_outpointKeys.1 hkey
    obtain ⟨-, hfree⟩ := List.mem_filter.1 hu
    have hmem : (outpointKeys (trackedList answer)).contains key = true := by
      simpa using hconfirmed
    simp only [hukey, Option.any_some, hmem, Bool.true_or, Bool.not_true] at hfree
    cases hfree

theorem OutpointsInv.markSpent {inputs : List Js} (h : OutpointsInv owner s) :
    OutpointsInv owner (cacheStep s (.markSpent inputs)) := by
  have hgrow : ∀ key, key ∈ s.cache.spent → key ∈ (s.cache.markSpent inputs).spent :=
    fun key hkey => List.mem_append_right _ hkey
  refine ⟨h.owned, fun key hkey hmarked => ?_, h.utxos_nodup, h.speculative_nodup,
    fun hmerged key hkey hconfirmed => hgrow key (h.overlap hmerged key hkey hconfirmed)⟩
  rcases List.mem_append.1 hmarked with hmarked | hmarked
  · exact List.mem_append_left _ hmarked
  · exact hgrow key (h.remembered key hkey hmarked)

/-- Change that is registered. -/
theorem OutpointsInv.addSpeculative {utxo : Js} (h : OutpointsInv owner s)
    (hcareful : CarefulCache owner s (.addSpeculative utxo)) :
    OutpointsInv owner (cacheStep s (.addSpeculative utxo)) := by
  rw [cacheStep, UTXOCache.addSpeculative]
  split_ifs with hskip
  · exact h
  · rw [Bool.not_eq_true, Bool.or_eq_false_iff, Bool.not_eq_false'] at hskip
    obtain ⟨hregisters, hnew⟩ := hskip
    have hdefined : utxo.isNullish = false := by
      cases utxo with
      | undefined | null => cases hregisters
      | _ => rfl
    obtain ⟨key, hkey⟩ := exists_cachedKey hdefined
    obtain ⟨henters, hoverlap⟩ := hcareful hregisters key hkey
    have hfresh : key ∉ outpointKeys s.cache.speculative := by simpa [hkey] using hnew
    have hkeys : outpointKeys (s.cache.speculative ++ [utxo]) =
        outpointKeys s.cache.speculative ++ [key] := by
      rw [outpointKeys_append]
      simp [outpointKeys, hkey]
    have hentries : ∀ key', key' ∈ outpointKeys (s.cache.utxos ++ (s.cache.speculative ++ [utxo])) →
        key' ∈ outpointKeys s.cache.entries ∨ key' = key := by
      intro key' hkey'
      rw [outpointKeys_append, hkeys, ← List.append_assoc, ← outpointKeys_append] at hkey'
      rw [← List.mem_singleton, ← List.mem_append]
      exact hkey'
    constructor
    · intro key' hkey'
      rcases hentries key' hkey' with hkey' | rfl
      · exact h.owned key' hkey'
      · exact henters.1
    · intro key' hkey'
      rcases hentries key' hkey' with hkey' | rfl
      · exact h.remembered key' hkey'
      · exact henters.2
    · exact h.utxos_nodup
    · rw [hkeys]
      exact List.nodup_append.2 ⟨h.speculative_nodup, List.nodup_cons.2 ⟨List.not_mem_nil, List.nodup_nil⟩,
        fun a ha b hb hab => hfresh (by rw [← List.mem_singleton.1 hb, ← hab]; exact ha)⟩
    · intro hmerged key' hkey' hconfirmed
      rw [hkeys, List.mem_append, List.mem_singleton] at hkey'
      rcases hkey' with hkey' | rfl
      · exact h.overlap hmerged key' hkey' hconfirmed
      · exact hoverlap hconfirmed

theorem cacheStep_inv {e : CacheEvent} (h : OutpointsInv owner s)
    (hcareful : CarefulCache owner s e) : OutpointsInv owner (cacheStep s e) := by
  cases e with
  | refresh address =>
    by_cases hsame : s.cache.address = some address
    · have hstart : s.cache.startRefresh address = s.cache := if_pos hsame
      rw [cacheStep, hstart]
      exact ⟨h.owned, h.remembered, h.utxos_nodup, h.speculative_nodup, h.overlap⟩
    · refine outpointsInv_of_empty ?_
      have hstart : s.cache.startRefresh address =
        { s.cache with address := some address, spent := [], speculative := [] } := if_neg hsame
      rw [cacheStep, hstart, UTXOCache.entries, hcareful.resolve_left hsame]
      rfl
  | replied i answer =>
    rw [cacheStep]
    split_ifs with hi
    · exact h
    · cases answer with
      | none => exact ⟨h.owned, h.remembered, h.utxos_nodup, h.speculative_nodup, h.overlap⟩
      | some answer =>
        obtain ⟨hnodup, henters⟩ := hcareful (Nat.lt_of_not_le hi)
        exact h.replied hnodup henters
  | markSpent inputs => exact h.markSpent
  | addSpeculative utxo => exact h.addSpeculative hcareful
  | invalidate => exact outpointsInv_of_empty rfl

/-- **Reads are safe**, after every run of careful steps, whatever the order of the answers. -/
theorem speculativeCache_safe (owner : String → String) (es : List CacheEvent)
    (hrun : Runs.Along cacheStep (CarefulCache owner) {} es) : SafeRead owner (cacheRun {} es) :=
  (Runs.Along.inv (fun _ _ => cacheStep_inv) (outpointsInv_of_empty rfl) hrun).safe

end Safety

/-- An output of a list. -/
def listedOutput (txid : String) (vout : ℕ) : Js :=
  obj [("txid", str txid), ("vout", num (.fin vout))]

/-- A send and its change: refreshed, sent, and refreshed again once the change is confirmed. -/
def changeRun : List CacheEvent :=
  [.refresh "A", .replied 0 (some (arr [listedOutput "t" 0])), .markSpent [listedOutput "t" 0],
    .addSpeculative (listedOutput "u" 1), .refresh "A",
    .replied 0 (some (arr [listedOutput "u" 1]))]

theorem speculativeCache_safe_change :
    SafeRead (fun _ => "A") (cacheRun {} changeRun) := by
  refine speculativeCache_safe (fun _ => "A") changeRun ?_
  refine ⟨.inr rfl, fun _ => ⟨by decide, ?_⟩, trivial, fun _ key hkey => ⟨⟨rfl, ?_⟩, ?_⟩,
    .inl rfl, fun _ => ⟨by decide, ?_⟩, trivial⟩
  · intro key _
    exact ⟨rfl, fun h => absurd h List.not_mem_nil⟩
  · rw [← Option.some.inj hkey]
    decide
  · rw [← Option.some.inj hkey]
    decide
  · intro key _
    exact ⟨rfl, fun h => h⟩

/-- What a read returns after a run. -/
def readAfter (es : List CacheEvent) : Option (List String) :=
  (cacheRun {} es).cache.getAvailable.map outpointKeys

/-- `A` is asked for, then `B`, and the answer for `A` comes last. -/
def lateReply : List CacheEvent :=
  [.refresh "A", .refresh "B", .replied 1 (some (arr [listedOutput "b" 0])),
    .replied 0 (some (arr [listedOutput "a" 0]))]

/-- The tracker lists the change before it is registered. -/
def earlyListing : List CacheEvent :=
  [.refresh "A", .replied 0 (some (arr [listedOutput "u" 1])), .addSpeculative (listedOutput "u" 1)]

/-- `B` is taken up with the outputs of `A`, one of them spent. -/
def newAddress : List CacheEvent :=
  [.refresh "A", .replied 0 (some (arr [listedOutput "a" 0])), .markSpent [listedOutput "a" 0],
    .refresh "B"]

/-- The addresses of the outputs of the runs. -/
def sampleOwner (key : String) : String := if key = "b:0" then "B" else "A"

theorem not_safeRead_of {owner : String → String} {s : CacheState} {available : List Js}
    (hread : s.cache.getAvailable = some available)
    (hbroken : (outpointKeys available).Nodup → ∃ u ∈ available, ∀ key, cachedKey u = some key →
      key ∈ s.marked ∨ s.cache.address ≠ some (owner key)) : ¬ SafeRead owner s := by
  intro hsafe
  obtain ⟨hnodup, hall⟩ := hsafe available hread
  obtain ⟨u, hu, hbad⟩ := hbroken hnodup
  obtain ⟨key, hkey, hmarked, howner⟩ := hall u hu
  rcases hbad key hkey with hbad | hbad
  · exact hmarked hbad
  · exact hbad howner

/-- An output of another address, an output twice, and a spent output. -/
theorem speculativeCache_unsafe :
    (readAfter lateReply = some ["a:0"] ∧ ¬ SafeRead sampleOwner (cacheRun {} lateReply)) ∧
    (readAfter earlyListing = some ["u:1", "u:1"] ∧
      ¬ SafeRead sampleOwner (cacheRun {} earlyListing)) ∧
    (readAfter newAddress = some ["a:0"] ∧ "a:0" ∈ (cacheRun {} newAddress).marked ∧
      ¬ SafeRead sampleOwner (cacheRun {} newAddress)) := by
  refine ⟨⟨by decide, ?_⟩, ⟨by decide, ?_⟩, by decide, by decide, ?_⟩
  · have hread : (cacheRun {} lateReply).cache.getAvailable = some [listedOutput "a" 0] := rfl
    refine not_safeRead_of hread fun _ => ⟨_, List.mem_singleton_self _, fun key hkey => .inr ?_⟩
    rw [← Option.some.inj hkey]
    decide
  · have hread : (cacheRun {} earlyListing).cache.getAvailable =
        some [listedOutput "u" 1, listedOutput "u" 1] := rfl
    exact not_safeRead_of hread fun hnodup => absurd hnodup (by decide)
  · have hread : (cacheRun {} newAddress).cache.getAvailable = some [listedOutput "a" 0] := rfl
    refine not_safeRead_of hread fun _ => ⟨_, List.mem_singleton_self _, fun key hkey => .inl ?_⟩
    rw [← Option.some.inj hkey]
    decide

end XChainSdk
