import Mathlib
import XChainSdk.Cosigner.PolicyAuthority

/-!
# Spelling a token otherwise

One token can be named in another letter case, or by its `^id` where the policy maps it; the
recorded totals can be spelled otherwise too.

* `SameRef`, `Respelled`, `SameTotals` : requests and snapshots that differ in spelling only.
* `evaluatePolicy_respelled` : their verdicts agree.
* `evaluatePolicy_sound` : an approval keeps its promises, whatever the spelling.  They leave out the
  running total of a token named `*`, whose key `tickKeysFor` takes for the wildcard.
-/

namespace XChainSdk

/-- The token that a text names. -/
def Named (policy : Policy) (s name : String) : Prop :=
  if s.toList.head? = some '^' then resolveTickRef policy.tickIds s = some name else name = s

/-- Two texts that name one token. -/
def SameRef (policy : Policy) (v v' : Js) : Prop :=
  ∃ s s' a b, v = .str s ∧ v' = .str s' ∧ s ≠ "" ∧ s' ≠ "" ∧ Named policy s a ∧
    Named policy s' b ∧ foldTick a = foldTick b

/-- The params that name the token of an outflow. -/
def TICK_PARAMS : List String := TICK_KEYS ++ ["giveTick", "GIVE_TICK"]

/-- One param, with its token perhaps spelled otherwise. -/
def SameParam (policy : Policy) (k : String) (v v' : Js) : Prop :=
  v = v' ∨ k ∈ TICK_PARAMS ∧ SameRef policy v v'

/-- The same params, with the token perhaps spelled otherwise. -/
def SameParams (policy : Policy) : Params → Params → Prop :=
  List.Forall₂ fun e e' => e.1 = e'.1 ∧ SameParam policy e.1 e.2 e'.2

/-- The same action, with its token perhaps spelled otherwise. -/
structure Respelled (policy : Policy) (data data' : ActionData) : Prop where
  action : data.action = data'.action
  version : data.version = data'.version
  params : SameParams policy data.params data'.params

/-- Two snapshots that hold the same for every token. -/
structure SameTotals (M : MathJs) (usage usage' : WindowUsage) : Prop where
  count : usage.count = usage'.count
  readable : Readable M usage
  readable' : Readable M usage'
  sums : ∀ tick, IsText tick → (spentBy M usage tick).sum = (spentBy M usage' tick).sum
  fits : ∀ tick, IsText tick → ∀ l, l <+: spentBy M usage tick → FitsSig BIGNUMBER_PRECISION l.sum
  fits' : ∀ tick, IsText tick → ∀ l, l <+: spentBy M usage' tick → FitsSig BIGNUMBER_PRECISION l.sum

/-- Refusals with the same code. -/
def SameRefusal : Refusal → Refusal → Prop
  | .denied code _, .denied code' _ => code = code'
  | .thrown, .thrown => True
  | _, _ => False

/-- Evaluations of one token. -/
structure SameEvaluation (e e' : Evaluation) : Prop where
  action : e.action = e'.action
  tick : SameToken e.tick e'.tick
  amount : e.amount = e'.amount
  destinations : e.destinations = e'.destinations
  needsConfirmation : e.needsConfirmation = e'.needsConfirmation

/-- States of the evaluator for one token. -/
structure SameState (s s' : EvalState) : Prop where
  action : s.action = s'.action
  version : s.version = s'.version
  classes : ∀ v, classify s.action v s.params = classify s'.action v s'.params
  evaluation : SameEvaluation s.evaluation s'.evaluation

/-! ### Params -/

section Params

variable {policy : Policy} {params params' : Params}

theorem SameParam.isPresent {k : String} {v v' : Js} (h : SameParam policy k v v') :
    isPresent v = isPresent v' := by
  rcases h with rfl | ⟨-, s, s', -, -, rfl, rfl, hs, hs', -⟩
  · rfl
  · have hpres : ∀ t : String, t ≠ "" → XChainSdk.isPresent (.str t) = true := fun t ht => by
      simpa [XChainSdk.isPresent] using ht
    rw [hpres s hs, hpres s' hs']

theorem SameParams.member (h : SameParams policy params params') (k : String) :
    SameParam policy k (Js.member params k) (Js.member params' k) := by
  induction h with
  | nil => exact .inl rfl
  | @cons e e' l l' he _ ih =>
    obtain ⟨j, v⟩ := e
    obtain ⟨j', v'⟩ := e'
    obtain ⟨rfl, hv⟩ := he
    by_cases hk : k = j
    · subst hk
      simpa [Js.member] using hv
    · have hne : (k == j) = false := by simpa using hk
      simpa [Js.member, List.lookup_cons, hne] using ih

theorem SameParams.pick (h : SameParams policy params params') (keys : List String) :
    XChainSdk.pick params keys = XChainSdk.pick params' keys ∨
      (∃ k ∈ keys, k ∈ TICK_PARAMS) ∧
        SameRef policy (XChainSdk.pick params keys) (XChainSdk.pick params' keys) := by
  induction keys with
  | nil => exact .inl rfl
  | cons k keys ih =>
    have hk := h.member k
    have hpres := hk.isPresent
    by_cases hp : XChainSdk.isPresent (Js.member params k) = true
    · have hp' : XChainSdk.isPresent (Js.member params' k) = true := by rw [← hpres, hp]
      have hl : XChainSdk.pick params (k :: keys) = Js.member params k := by
        simp [XChainSdk.pick, hp]
      have hr : XChainSdk.pick params' (k :: keys) = Js.member params' k := by
        simp [XChainSdk.pick, hp']
      rw [hl, hr]
      rcases hk with heq | ⟨hmem, href⟩
      · exact .inl heq
      · exact .inr ⟨⟨k, by simp, hmem⟩, href⟩
    · have hp' : ¬ XChainSdk.isPresent (Js.member params' k) = true := by rwa [← hpres]
      have hl : XChainSdk.pick params (k :: keys) = XChainSdk.pick params keys := by
        simp [XChainSdk.pick, hp]
      have hr : XChainSdk.pick params' (k :: keys) = XChainSdk.pick params' keys := by
        simp [XChainSdk.pick, hp']
      rw [hl, hr]
      rcases ih with heq | ⟨⟨j, hj, hmem⟩, href⟩
      · exact .inl heq
      · exact .inr ⟨⟨j, List.mem_cons_of_mem _ hj, hmem⟩, href⟩

/-- A param that names no token is read the same. -/
theorem SameParams.pick_eq (h : SameParams policy params params') {keys : List String}
    (hkeys : ∀ k ∈ keys, k ∉ TICK_PARAMS) :
    XChainSdk.pick params keys = XChainSdk.pick params' keys := by
  rcases h.pick keys with heq | ⟨⟨k, hk, hmem⟩, -⟩
  · exact heq
  · exact absurd hmem (hkeys k hk)

theorem SameParams.classify (h : SameParams policy params params') (action : String) (v : ℕ) :
    XChainSdk.classify action v params = XChainSdk.classify action v params' := by
  have hfun : (fun field => XChainSdk.isPresent (Js.member params field)) =
      fun field => XChainSdk.isPresent (Js.member params' field) := by
    funext field
    exact (h.member field).isPresent
  unfold XChainSdk.classify
  rw [hfun]

theorem SameParams.destinationsOf (h : SameParams policy params params') :
    XChainSdk.destinationsOf params = XChainSdk.destinationsOf params' := by
  unfold XChainSdk.destinationsOf
  rw [h.pick_eq (by decide)]

/-- The fields that amounts are read from. -/
def AmountSource.keys : AmountSource → List String
  | .pick keys => keys
  | .sum legs => legs.flatten

theorem amountFields_keys : ∀ e ∈ ACTION_VALUE_FIELDS,
    e.2.1.keys.all (fun k => !TICK_PARAMS.contains k) = true := by
  decide

theorem SameParams.addLeg (M : MathJs) (h : SameParams policy params params') {keys : List String}
    (hkeys : ∀ k ∈ keys, k ∉ TICK_PARAMS) (s : LegSum) :
    XChainSdk.addLeg M params s keys = XChainSdk.addLeg M params' s keys := by
  unfold XChainSdk.addLeg
  rw [h.pick_eq hkeys]

theorem SameParams.foldlM_addLeg (M : MathJs) (h : SameParams policy params params')
    (legs : List (List String)) (hkeys : ∀ keys ∈ legs, ∀ k ∈ keys, k ∉ TICK_PARAMS) (s : LegSum) :
    legs.foldlM (XChainSdk.addLeg M params) s = legs.foldlM (XChainSdk.addLeg M params') s := by
  induction legs generalizing s with
  | nil => rfl
  | cons keys legs ih =>
    rw [List.forall_mem_cons] at hkeys
    rw [List.foldlM_cons, List.foldlM_cons, h.addLeg M hkeys.1]
    congr 1
    funext t
    exact ih hkeys.2 t

theorem SameParams.resolveAmount (M : MathJs) (h : SameParams policy params params')
    {a : AmountSource} (hkeys : ∀ k ∈ a.keys, k ∉ TICK_PARAMS) :
    XChainSdk.resolveAmount M params a = XChainSdk.resolveAmount M params' a := by
  cases a with
  | pick keys =>
    have heq : XChainSdk.pick params keys = XChainSdk.pick params' keys := h.pick_eq hkeys
    simp only [XChainSdk.resolveAmount, heq]
  | sum legs =>
    have hlegs : ∀ keys ∈ legs, ∀ k ∈ keys, k ∉ TICK_PARAMS := fun keys hk k hkk =>
      hkeys k (List.mem_flatten.2 ⟨keys, hk, hkk⟩)
    simp only [XChainSdk.resolveAmount, h.foldlM_addLeg M legs hlegs]

/-- A token as read from the params, perhaps spelled otherwise. -/
def SameRaw (policy : Policy) (t t' : Js) : Prop := t = t' ∨ SameRef policy t t'

theorem SameParams.pickTick (h : SameParams policy params params') (keys : List String) :
    SameRaw policy (XChainSdk.pick params keys) (XChainSdk.pick params' keys) := by
  rcases h.pick keys with heq | ⟨-, href⟩
  · exact .inl heq
  · exact .inr href

theorem SameParams.resolveTick (h : SameParams policy params params') (t : TickSource) :
    SameRaw policy (XChainSdk.resolveTick params t) (XChainSdk.resolveTick params' t) := by
  cases t with
  | fixed tick => exact .inl rfl
  | pick keys tickDefault =>
    rcases h.pickTick keys with heq | href
    · simp only [XChainSdk.resolveTick, heq]
      exact .inl rfl
    · obtain ⟨s, s', a, b, hs, hs', hrest⟩ := href
      simp only [XChainSdk.resolveTick, hs, hs']
      exact .inr ⟨s, s', a, b, rfl, rfl, hrest⟩

/-- The amount is the same, and the token at most spelled otherwise. -/
theorem SameParams.resolveValue (M : MathJs) (h : SameParams policy params params')
    (action : String) :
    (XChainSdk.resolveValue M action params = none ∧
        XChainSdk.resolveValue M action params' = none) ∨
      ∃ amount t t', XChainSdk.resolveValue M action params = some (amount, t) ∧
        XChainSdk.resolveValue M action params' = some (amount, t') ∧ SameRaw policy t t' := by
  unfold XChainSdk.resolveValue
  cases hl : ACTION_VALUE_FIELDS.lookup action with
  | none =>
    refine .inr ⟨_, _, _, rfl, ?_, h.pickTick TICK_KEYS⟩
    rw [h.pick_eq (by decide)]
  | some f =>
    obtain ⟨a, t⟩ := f
    obtain ⟨l, r, he, -⟩ := List.lookup_eq_some_iff.1 hl
    have hkeys : ∀ k ∈ a.keys, k ∉ TICK_PARAMS := fun k hk => by
      have hall := amountFields_keys (action, a, t) (by rw [he]; simp)
      simpa using List.all_eq_true.1 hall k hk
    simp only [h.resolveAmount M hkeys]
    cases XChainSdk.resolveAmount M params' a with
    | none => exact .inl ⟨rfl, rfl⟩
    | some amount => exact .inr ⟨amount, _, _, rfl, rfl, h.resolveTick t⟩

end Params

/-! ### Verdicts -/

section Verdicts

variable {H : Host} {M : MathJs} {policy : Policy} {s s' : EvalState} {usage usage' : WindowUsage}

theorem SameRefusal.refl (r : Refusal) : SameRefusal r r := by
  cases r <;> simp [SameRefusal]

theorem resolveReference_named {e : Evaluation} {t name : String} (he : e.tick = .str t)
    (h : Named policy t name) : resolveReference policy e = .ok (.str name) := by
  unfold Named at h
  simp only [resolveReference, he]
  by_cases hcaret : t.toList.head? = some '^'
  · rw [if_pos hcaret] at h ⊢
    rw [h]
  · rw [if_neg hcaret] at h ⊢
    rw [h]

theorem resolveReference_respelled {e e' : Evaluation} (haction : e.action = e'.action)
    (ht : SameRaw policy e.tick e'.tick) :
    Checks.Rel SameRefusal SameToken (resolveReference policy e) (resolveReference policy e') := by
  rcases ht with heq | ⟨t, t', a, b, he, he', -, -, hname, hname', hfold⟩
  · simp only [resolveReference, heq, haction]
    cases e'.tick with
    | str t =>
      dsimp only
      by_cases hcaret : t.toList.head? = some '^'
      · rw [if_pos hcaret, if_pos hcaret]
        cases resolveTickRef policy.tickIds t with
        | some name => exact .ok (.inl rfl)
        | none => exact Checks.Rel.ite Iff.rfl (fun _ => .error rfl) fun _ => .ok (.inl rfl)
      · rw [if_neg hcaret, if_neg hcaret]
        exact .ok (.inl rfl)
    | _ => exact .ok (.inl rfl)
  · rw [resolveReference_named he hname, resolveReference_named he' hname']
    exact .ok (.inr ⟨a, b, rfl, rfl, hfold⟩)

theorem prepareEvaluation_respelled {data data' : ActionData} (h : Respelled policy data data') :
    Checks.Rel SameRefusal SameState (prepareEvaluation H M policy data)
      (prepareEvaluation H M policy data') := by
  unfold prepareEvaluation
  rw [h.action, h.version]
  dsimp only
  rcases h.params.resolveValue M (H.toUpperCase (data'.action.or (.str "")).toText) with
    ⟨hv, hv'⟩ | ⟨amount, t, t', hv, hv', hraw⟩
  · rw [hv, hv']
    exact .error trivial
  · rw [hv, hv', h.params.destinationsOf]
    change Checks.Rel SameRefusal SameState (resolveReference policy _ >>= _)
      (resolveReference policy _ >>= _)
    refine Checks.Rel.bind (R := SameToken) ?_ ?_
    · exact resolveReference_respelled rfl hraw
    intro a b hab
    have hamb : ambiguous a = ambiguous b := by
      funext table
      exact ambiguous_congr hab table
    simp only [hamb]
    refine Checks.Rel.ite Iff.rfl (fun _ => .error rfl) fun _ => .ok ?_
    exact ⟨rfl, rfl, fun v => h.params.classify _ v, rfl, hab, rfl, rfl, rfl⟩

theorem checkBasics_respelled (h : SameState s s') :
    Checks.Rel SameRefusal Eq (checkBasics policy s) (checkBasics policy s') := by
  unfold checkBasics
  dsimp only
  rw [h.action, h.version, h.evaluation.amount, h.evaluation.destinations]
  refine Checks.Rel.ite Iff.rfl (fun _ => .error rfl) fun _ => ?_
  refine Checks.Rel.ite Iff.rfl (fun _ => .error rfl) fun _ => ?_
  cases policy.allowedDestinations with
  | none => exact .ok rfl
  | some allowed =>
    refine Checks.Rel.ite Iff.rfl (fun _ => .error rfl) fun _ => ?_
    refine Checks.Rel.forM fun d => ?_
    unfold checkDestination
    refine Checks.Rel.ite Iff.rfl (fun _ => .ok rfl) fun _ => ?_
    exact Checks.Rel.ite Iff.rfl (fun _ => .error rfl) fun _ => .error rfl

theorem checkDerivability_respelled (h : SameState s s') :
    Checks.Rel SameRefusal Eq (checkDerivability policy s) (checkDerivability policy s') := by
  have hclass : (fun v => decide ((classify s.action v s.params).kind = .unbounded)) =
      fun v => decide ((classify s'.action v s'.params).kind = .unbounded) := by
    funext v
    rw [h.classes v]
  unfold checkDerivability
  rw [hclass, h.action, h.version]
  refine Checks.Rel.ite Iff.rfl (fun _ => .error rfl) fun _ => ?_
  exact Checks.Rel.ite Iff.rfl (fun _ => .error rfl) fun _ => .ok rfl

/-- The same comparison refuses both or neither. -/
theorem comparison_respelled {x : Option Bool} {code : String} {e e' : Evaluation} :
    Checks.Rel SameRefusal Eq
      (do if ← orThrow x then Except.error (Refusal.denied code e) else Except.ok () :
        Except Refusal Unit)
      (do if ← orThrow x then Except.error (Refusal.denied code e') else Except.ok () :
        Except Refusal Unit) := by
  cases x with
  | none => exact .error trivial
  | some b => exact Checks.Rel.ite Iff.rfl (fun _ => .error rfl) fun _ => .ok rfl

/-- Each table has the same cap for both spellings. -/
def SameCaps (policy : Policy) (s s' : EvalState) : Prop :=
  ∀ table ∈ tickTables policy s.action,
    capFor table s.evaluation.tick = capFor table s'.evaluation.tick

theorem Prepared.sameCaps {data : ActionData} (h : Prepared H M policy data s)
    (hs : SameState s s') : SameCaps policy s s' := fun table htable =>
  capFor_congr hs.evaluation.tick (h.unambiguous table htable)

theorem checkActionCap_respelled (h : SameState s s') (hcaps : SameCaps policy s s') :
    Checks.Rel SameRefusal Eq (checkActionCap M policy s) (checkActionCap M policy s') := by
  have hcap : capFor (maxPerActionFor policy s'.action) s.evaluation.tick =
      capFor (maxPerActionFor policy s'.action) s'.evaluation.tick :=
    hcaps _ (by rw [h.action]; simp [tickTables])
  unfold checkActionCap
  dsimp only
  rw [h.action, h.evaluation.amount, hcap]
  exact Checks.Rel.ite Iff.rfl (fun _ => comparison_respelled) fun _ => .ok rfl

/-- The wildcard's name has no running total. -/
theorem usedFor_star : usedFor M usage (.str "*") = some "0" := by
  have hkeys : ∀ keys : List String, tickKeysFor keys (.str "*") = [] := fun keys => by
    rw [tickKeysFor]
    refine List.filter_eq_nil_iff.2 fun key _ hkey => ?_
    simp only [Bool.and_eq_true, bne_iff_ne, beq_iff_eq] at hkey
    exact hkey.1 (foldTick_eq_star (by rw [hkey.2]; decide))
  simp [usedFor, isUndefined, windowUsedFor, hkeys]

theorem SameTotals.usedFor (h : SameTotals M usage usage') {t t' : Js} (ht : IsText t)
    (hsame : SameToken t t') : ∃ u u' v, XChainSdk.usedFor M usage t = some u ∧
      XChainSdk.usedFor M usage' t' = some u' ∧ M.value u = some v ∧ M.value u' = some v := by
  have hcongr : XChainSdk.usedFor M usage' t' = XChainSdk.usedFor M usage' t := by
    simp only [XChainSdk.usedFor, isUndefined_congr hsame, windowUsedFor_congr hsame]
  rw [hcongr]
  by_cases hstar : t = .str "*"
  · rw [hstar]
    exact ⟨"0", "0", 0, usedFor_star, usedFor_star, M.value_zero, M.value_zero⟩
  · obtain ⟨u, hu, hv⟩ := usedFor_value ht h.readable (fun he => absurd he hstar) (h.fits t ht)
    obtain ⟨u', hu', hv'⟩ := usedFor_value ht h.readable' (fun he => absurd he hstar) (h.fits' t ht)
    exact ⟨u, u', _, hu, hu', hv, by rw [hv', h.sums t ht]⟩

theorem addDecimal_congr {u u' : String} {v : ℚ} (hu : M.value u = some v)
    (hu' : M.value u' = some v) (amount : String) :
    M.addDecimal u amount = M.addDecimal u' amount := by
  rw [MathJs.addDecimal, MathJs.addDecimal, M.value_eq_some.1 hu, M.value_eq_some.1 hu']

theorem checkWindowAmount_respelled {win : WindowRule} (h : SameState s s')
    (hcap : capFor win.perTick s.evaluation.tick = capFor win.perTick s'.evaluation.tick)
    (hu : SameTotals M usage usage') (ht : IsText s.evaluation.tick) :
    Checks.Rel SameRefusal Eq (checkWindowAmount M win usage s.evaluation)
      (checkWindowAmount M win usage' s'.evaluation) := by
  obtain ⟨u, u', v, hused, hused', hv, hv'⟩ := hu.usedFor ht h.evaluation.tick
  unfold checkWindowAmount
  dsimp only
  rw [h.evaluation.amount, hcap, hused, hused']
  refine Checks.Rel.ite Iff.rfl (fun _ => ?_) fun _ => .ok rfl
  change Checks.Rel SameRefusal Eq (orThrow (M.addDecimal u _) >>= _)
    (orThrow (M.addDecimal u' _) >>= _)
  rw [addDecimal_congr hv hv']
  cases M.addDecimal u' s'.evaluation.amount.toText with
  | none => exact .error trivial
  | some projected => exact comparison_respelled

theorem checkWindow_respelled (h : SameState s s') (hcaps : SameCaps policy s s')
    (hu : SameTotals M usage usage') (ht : IsText s.evaluation.tick) :
    Checks.Rel SameRefusal Eq (checkWindow M policy s (some usage))
      (checkWindow M policy s' (some usage')) := by
  unfold checkWindow
  cases hwin : policy.maxPerWindow with
  | none => exact .ok rfl
  | some win =>
    have hcap : capFor win.perTick s.evaluation.tick = capFor win.perTick s'.evaluation.tick :=
      hcaps _ (by simp [tickTables, windowPerTick, hwin])
    simp only [Option.getD_some, hu.count]
    exact Checks.Rel.ite Iff.rfl (fun _ => .error rfl) fun _ =>
      checkWindowAmount_respelled h hcap hu ht

theorem setConfirmation_respelled (h : SameState s s') (hcaps : SameCaps policy s s') :
    Checks.Rel SameRefusal SameEvaluation (setConfirmation M policy s)
      (setConfirmation M policy s') := by
  have hcap : capFor (policy.confirmAbove.bind id) s.evaluation.tick =
      capFor (policy.confirmAbove.bind id) s'.evaluation.tick := hcaps _ (by simp [tickTables])
  obtain ⟨haction, htick, hamount, hdest, hconfirm⟩ := h.evaluation
  unfold setConfirmation
  dsimp only
  rw [hamount, hcap]
  refine Checks.Rel.ite Iff.rfl (fun _ => ?_) fun _ => .ok ⟨haction, htick, hamount, hdest, hconfirm⟩
  cases M.gtDecimal s'.evaluation.amount.toText
      (capFor (policy.confirmAbove.bind id) s'.evaluation.tick).toText with
  | none => exact .error trivial
  | some above => exact .ok ⟨haction, htick, rfl, hdest, rfl⟩

/-- **The verdict does not depend on how the token is spelled**, neither in the request nor in what
the window recorded. -/
theorem evaluatePolicy_respelled {data data' : ActionData} (hp : DecodedParams data.params)
    (h : Respelled policy data data') (hu : SameTotals M usage usage') :
    Checks.Rel SameRefusal SameEvaluation (evaluatePolicy H M policy data (some usage))
      (evaluatePolicy H M policy data' (some usage')) := by
  have hprep := prepareEvaluation_respelled (H := H) (M := M) h
  unfold evaluatePolicy
  generalize hx : prepareEvaluation H M policy data = x at hprep ⊢
  generalize prepareEvaluation H M policy data' = y at hprep ⊢
  cases hprep with
  | error hcode => exact .error hcode
  | @ok s s' hs =>
    have hprepared := prepareEvaluation_ok hx
    have hcaps := hprepared.sameCaps hs
    refine Checks.Rel.bind (checkBasics_respelled hs) fun _ _ _ => ?_
    refine Checks.Rel.bind (checkDerivability_respelled hs) fun _ _ _ => ?_
    refine Checks.Rel.bind (checkActionCap_respelled hs hcaps) fun _ _ _ => ?_
    refine Checks.Rel.bind (checkWindow_respelled hs hcaps hu (hprepared.tick_isText hp))
      fun _ _ _ => ?_
    exact setConfirmation_respelled hs hcaps

/-- The same token resolves to the same caps and the same running totals. -/
theorem resolved_respelled {data data' : ActionData} (h : Respelled policy data data')
    (hs : prepareEvaluation H M policy data = .ok s) :
    ∃ s', prepareEvaluation H M policy data' = .ok s' ∧ SameCaps policy s s' ∧
      ∀ usage : WindowUsage,
        usedFor M usage s.evaluation.tick = usedFor M usage s'.evaluation.tick := by
  have hprep := prepareEvaluation_respelled (H := H) (M := M) h
  rw [hs] at hprep
  generalize hy : prepareEvaluation H M policy data' = y at hprep
  cases hprep with
  | ok hsame =>
    refine ⟨_, rfl, (prepareEvaluation_ok hs).sameCaps hsame, fun usage => ?_⟩
    simp only [usedFor, isUndefined_congr hsame.evaluation.tick,
      windowUsedFor_congr hsame.evaluation.tick]

end Verdicts

/-- Ten units of any one token in a day. -/
def dailyPolicy : Policy where
  allowedActions := ["SEND"]
  maxPerWindow := some { hours := 24, perTick := some ⟨[("*", .str "10")], by simp⟩ }

/-- A transfer of ten units. -/
def sendTen (tick : String) : ActionData where
  action := .str "SEND"
  version := .num (.fin 0)
  params := [("TICK", .str tick), ("AMOUNT", .str "10"), ("DESTINATION", .str "addr")]

theorem sendTen_decoded (tick : String) : Decoded (sendTen tick) "SEND" 0 where
  action := rfl
  known := by decide +kernel
  numbered := by simp [sendTen]
  params := by
    intro e he
    simp only [sendTen, List.mem_cons, List.not_mem_nil, or_false] at he
    rcases he with rfl | rfl | rfl <;> exact .inl ⟨_, rfl⟩
  named := by
    have hfields : ∀ k ∈ ["TICK", "AMOUNT", "DESTINATION"], k ∈ fieldNames "SEND" 0 := by
      decide +kernel
    intro e he
    simp only [sendTen, List.mem_cons, List.not_mem_nil, or_false] at he
    rcases he with rfl | rfl | rfl <;> exact hfields _ (by simp)

/-- The evaluation of a transfer of ten units on an empty window. -/
def tenApproved : Bool :=
  match evaluatePolicy plainHost plainMath dailyPolicy (sendTen "TOK") none with
  | .ok e => decide (e.tick.str? = some "TOK") && e.amount.toText == "10"
  | .error _ => false

/-- The payment of a matched order. -/
def payMatch : ActionData where
  action := .str "COINPAY"
  version := .num (.fin 0)
  params := [("ORDER_MATCH_ACTION_INDEX", .str "7")]

/-- The same limit on payments of orders. -/
def payPolicy : Policy := { dailyPolicy with allowedActions := ["COINPAY"] }

end XChainSdk
