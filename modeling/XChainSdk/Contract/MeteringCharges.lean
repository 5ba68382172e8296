import XChainSdk.Contract.MeteringNames

/-!
# What metering charges

* `isMetered` : whether a node charges before what it runs.
* `callsCharged` : whether the calls under a node are charged.
* `Passing` : passes that charges can go through.
* `meterCode_metered` : **every function, loop, branch, case, condition and call of a metered
  source is charged**, but the calls that are computed keys of an object pattern.
-/

namespace XChainSdk

open Rose Ast

variable {armed : Option ArmedNames} {l : Label} {ks : List (Field × Ast)}

/-! ### Charged nodes -/

def startsWithGas : List (Field × Ast) → Bool
  | [] => false
  | k :: _ => isGasStatement k.2

/-- A block that charges first. -/
def isChargedBlock (b : Ast) : Bool := isBlock b && startsWithGas b.kids

/-- `(__gas(1), e)` -/
def isChargedExpr (e : Ast) : Bool :=
  e.type = .sequenceExpression && match e.kids with
    | [] => false
    | k :: _ => isCallOf "__gas" k.2

/-- The body of a function that charges after its directives. -/
def isEntered (b : Ast) : Bool :=
  isBlock b && startsWithGas (b.kids.dropWhile fun k => isDirective k.2) || isChargedExpr b

/-- What a guard guards: statements that charge, or the `return` of what charges. -/
def isChargedRest (b : Ast) : Bool :=
  isBlock b && match b.kids with
    | [] => false
    | k :: _ => isGasStatement k.2 ||
      Ast.type k.2 = .returnStatement && isChargedExpr (child k.2 .argument)

/-- The body of a function that counts its depth and charges. -/
def isGuardedBody (b : Ast) : Bool :=
  isBlock b && match b.kids.dropWhile fun k => isDirective k.2 with
    | [(_, enter), (_, t)] =>
      isDepthEnter enter && Ast.type t = .tryStatement && isChargedRest (child t .block)
    | _ => false

/-- Whether a node charges before what it runs; `fn` says what charges in a function. -/
def isMetered (fn : Ast → Bool) (a : Ast) : Bool :=
  match a.type with
  | .functionDeclaration | .functionExpression => (a.nodes .body).all fun b => isBlock b && fn b
  | .arrowFunctionExpression => (a.nodes .body).all fn
  | .forStatement => (a.nodes .body).all isChargedBlock &&
      (a.nodes .update).all fun u => isCallOf "__gas" u || isChargedExpr u
  | .whileStatement | .doWhileStatement | .forInStatement | .forOfStatement =>
    (a.nodes .body).all isChargedBlock
  | .ifStatement => (a.nodes .consequent).all isChargedBlock &&
      (a.nodes .alternate).all fun b => isHole b || b.type = .ifStatement || isChargedBlock b
  | .switchCase =>
    match a.nodes .consequent with
    | [] => true
    | stmt :: _ => isGasStatement stmt
  | .conditionalExpression => (a.nodes .test).all isChargedExpr
  | _ => true

/-- A node that is no call, or a call of a hook. -/
def isSettled (a : Ast) : Bool := !isCharged a || DEPTH_HELPERS.any (isCallOf · a)

/-- Whether the calls under a node are charged there, the hooks of metering apart.  The calls right
under a property or a rest element are looked at from above it: those of an object pattern may be
left alone. -/
def callsCharged (a : Ast) : Bool :=
  a.kids.all fun k =>
    (isSettled k.2 || isChargedExpr a || NodeType.passedBy.contains a.type) &&
      (a.type = .objectPattern || !NodeType.passedBy.contains k.2.label.type ||
        k.2.kids.all fun j => isSettled j.2)

/-- The types of the nodes that charge. -/
def NodeType.metered : List NodeType :=
  [.functionDeclaration, .functionExpression, .arrowFunctionExpression, .forStatement,
    .whileStatement, .doWhileStatement, .forInStatement, .forOfStatement, .ifStatement,
    .switchCase, .conditionalExpression]

theorem isMetered_of_type {fn : Ast → Bool} {a : Ast} (h : a.type ∉ NodeType.metered) :
    isMetered fn a = true := by
  unfold isMetered
  split
  all_goals first | rfl | simp_all [NodeType.metered]

theorem neutral_isMetered (fn : Ast → Bool) : Neutral fun a => isMetered fn a = true where
  added a ha := by
    have hdisjoint : ∀ t ∈ NodeType.added, t ∉ NodeType.metered := by decide
    exact isMetered_of_type (hdisjoint _ ha)
  gas args := rfl

/-- Only a function looks at the bodies of functions. -/
theorem isMetered_congr (fn fn' : Ast → Bool) {a : Ast} (h : a.type.isFunction = false) :
    isMetered fn a = isMetered fn' a := by
  unfold isMetered
  split
  all_goals first | rfl | simp_all [NodeType.isFunction]

/-! ### Entry charges -/

theorem isChargedBlock_body {b : Ast} (h : b.type ≠ .hole) :
    isChargedBlock (unshift gasCallStatement (ensureBlock b)) = true := by
  have hblock : ∀ c : Ast, c.type = .blockStatement →
      isChargedBlock (unshift gasCallStatement c) = true := by
    rintro ⟨l, ks⟩ hl
    rw [type_node] at hl
    simp [isChargedBlock, isBlock, unshift, hl, startsWithGas]
  rw [ensureBlock]
  split_ifs with hform
  · simp only [Bool.or_eq_true, isHole, isBlock, decide_eq_true_eq] at hform
    exact hblock b (hform.resolve_left h)
  · exact hblock _ rfl

theorem isDirective_gas {a : Ast} (h : isGasStatement a = true) : isDirective a = false := by
  simp only [isGasStatement, isCallOf, Bool.and_eq_true, decide_eq_true_eq] at h
  simp [isDirective, h.2.1.1]

theorem isChargedExpr_wrapWithGas (e : Ast) : isChargedExpr (wrapWithGas e) = true := rfl

/-- The first statement after the directives. -/
theorem startsWithGas_insertGas (b : Ast) :
    startsWithGas ((insertGasAfterDirectives b).kids.dropWhile fun k => isDirective k.2) =
      true := by
  obtain ⟨l, ks⟩ := b
  have hdirs : ∀ k ∈ ks.takeWhile fun k => isDirective k.2, isDirective k.2 = true :=
    fun k hk => List.mem_takeWhile_imp (p := fun k : Field × Ast => isDirective k.2) hk
  rw [insertGasAfterDirectives, kids_node, List.dropWhile_append_of_pos hdirs,
    List.dropWhile_cons_of_neg (by simp [isDirective_gas])]
  rfl

theorem isEntered_insertGas {b : Ast} (h : isBlock b = true) :
    isEntered (insertGasAfterDirectives b) = true := by
  have hblock : isBlock (insertGasAfterDirectives b) = true := by
    rw [isBlock, type_insertGas]
    exact h
  rw [isEntered, hblock, startsWithGas_insertGas]
  rfl

/-- The nodes of a field after one is put before the first of them. -/
theorem nodes_charged (l : Label) (ks : List (Field × Ast)) (field : Field) (b : Ast) :
    nodes (.node l (ks.takeWhile (·.1 ≠ field) ++ (field, b) :: ks.dropWhile (·.1 ≠ field))) field =
      b :: nodes (.node l (ks.dropWhile (·.1 ≠ field))) field := by
  have hnone : (ks.takeWhile (·.1 ≠ field)).filter (·.1 = field) = [] := by
    refine List.filter_eq_nil_iff.2 fun k hk => ?_
    simpa using List.mem_takeWhile_imp (p := fun k : Field × Ast => k.1 ≠ field) hk
  simp only [nodes, kids_node, List.filter_append, hnone, List.nil_append]
  rw [List.filter_cons_of_pos (by simp), List.map_cons]

/-- **Every node charges once the entry charges are in.** -/
theorem isMetered_chargeEntry {a : Ast} (h : Grammatical a) :
    isMetered isEntered (chargeEntry armed a) = true := by
  have hloop : a.type ∈ [.forStatement, .whileStatement, .doWhileStatement, .forInStatement,
      .forOfStatement] → (a.nodes .body).all
        (fun b => isChargedBlock (unshift gasCallStatement (ensureBlock b))) = true := fun ht =>
    List.all_eq_true.2 fun b hb => isChargedBlock_body (h.loops ht b (mem_nodes.1 hb))
  have hfn : ∀ b : Ast, b.type = .blockStatement →
      (isBlock (if isBlock b then insertGasAfterDirectives b else b) &&
        isEntered (if isBlock b then insertGasAfterDirectives b else b)) = true := by
    intro b hb
    have hblock : isBlock b = true := decide_eq_true hb
    rw [if_pos hblock, isEntered_insertGas hblock, isBlock, type_insertGas, hb]
    rfl
  -- A `try` stays one or becomes a block, and neither is metered.
  by_cases htry : a.type = .tryStatement
  · have hout : ∀ t ∈ [NodeType.tryStatement, .blockStatement], t ∉ NodeType.metered := by decide
    exact isMetered_of_type (hout _ (type_chargeEntry_try armed htry))
  unfold chargeEntry
  split
  iterate 2
    rename_i htype
    simp only [isMetered, type_update, htype, nodes_update, List.all_map, List.all_eq_true]
    exact fun b hb => hfn b (h.functions (by simp [htype]) b (mem_nodes.1 hb))
  · rename_i htype
    simp only [isMetered, type_update, htype, nodes_update, List.all_map, List.all_eq_true]
    intro b _
    by_cases hblock : isBlock b = true
    · simp only [Function.comp_apply, if_pos hblock, isEntered_insertGas hblock]
    · simp [hblock, isEntered, isChargedExpr_wrapWithGas]
  · rename_i htype
    have hfor : isMetered isEntered ((chargeLoopBody a).update .update fun u =>
        if isHole u then gasCallExpr else wrapWithGas u) = ((a.nodes .body).all
          (fun b => isChargedBlock (unshift gasCallStatement (ensureBlock b))) &&
        (a.nodes .update).all fun u => isCallOf "__gas" (if isHole u then gasCallExpr
          else wrapWithGas u) ||
            isChargedExpr (if isHole u then gasCallExpr else wrapWithGas u)) := by
      simp only [isMetered, chargeLoopBody, type_update, htype, nodes_update,
        nodes_update_of_ne (show Field.update ≠ .body by decide),
        nodes_update_of_ne (show Field.body ≠ .update by decide), List.all_map]
      rfl
    rw [hfor, hloop (by simp [htype]), Bool.true_and, List.all_eq_true]
    intro u _
    split_ifs
    · rfl
    · rfl
  iterate 4
    rename_i htype
    simp only [isMetered, chargeLoopBody, type_update, htype, nodes_update, List.all_map]
    exact hloop (by simp [htype])
  · rename_i htype
    simp only [isMetered, type_update, htype, nodes_update,
      nodes_update_of_ne (show Field.consequent ≠ .alternate by decide),
      nodes_update_of_ne (show Field.alternate ≠ .consequent by decide), List.all_map,
      Bool.and_eq_true, List.all_eq_true]
    refine ⟨fun b hb => isChargedBlock_body (h.branches htype b (mem_nodes.1 hb)), fun b _ => ?_⟩
    by_cases hform : (isHole b || b.type = .ifStatement) = true
    · rw [Function.comp_apply, if_pos hform, hform, Bool.true_or]
    · have hhole : b.type ≠ .hole := by
        simp only [Bool.or_eq_true, isHole, decide_eq_true_eq, not_or] at hform
        exact hform.1
      rw [Function.comp_apply, if_neg hform, isChargedBlock_body hhole, Bool.or_true]
  · rename_i htype
    split_ifs with hempty
    · simp only [isMetered, htype]
      split
      · rfl
      · rename_i heq
        rw [heq] at hempty
        cases hempty
    · have hlabel : a.label.type = .switchCase := htype
      simp only [isMetered, type_node, hlabel, nodes_charged]
      rfl
  · contradiction
  · rename_i htype
    simp only [isMetered, type_update, htype, nodes_update, List.all_map, List.all_eq_true]
    exact fun b _ => rfl
  · exact isMetered_of_type (by simp_all [NodeType.metered])

/-! ### Passes over charged nodes -/

/-- Passes that go by what charges, and hand over to one another from a node to its branches. -/
structure Passing {ι : Type} (f : ι → Ast → Ast) : Prop where
  label : ∀ i (b : Ast), (f i b).label = b.label ∨ b.type ∈ [.callExpression, .tryStatement] ∧
    (f i b).type ∈ [.sequenceExpression, .tryStatement, .blockStatement]
  step : ∀ i l ks, l.type ∈ [.hole, .program, .expressionStatement, .blockStatement,
    .sequenceExpression] → ∃ j, f i (.node l ks) = .node l (mapKids (f j) ks)
  gas : ∀ i b, isCallOf "__gas" b = true → isCallOf "__gas" (f i b) = true

section Passing

variable {ι : Type} {f : ι → Ast → Ast} (hf : Passing f) (i : ι)

include hf

theorem Passing.hole : f i hole = hole := by
  obtain ⟨j, hj⟩ := hf.step i { type := .hole } [] (by decide)
  exact hj

theorem Passing.type_iff {t : NodeType} (ht : t ∉ [.callExpression, .tryStatement,
    .sequenceExpression, .blockStatement]) (b : Ast) : (f i b).type = t ↔ b.type = t := by
  simp only [List.mem_cons, List.not_mem_nil, or_false, not_or] at ht
  rcases hf.label i b with heq | ⟨hb, hfb⟩
  · rw [Ast.type, heq, ← Ast.type]
  · simp only [List.mem_cons, List.not_mem_nil, or_false] at hb hfb
    constructor
    · intro h
      rcases hfb with h' | h' | h' <;> simp [← h, h'] at ht
    · intro h
      rcases hb with h' | h' <;> simp [← h, h'] at ht

theorem Passing.isBlock {b : Ast} (h : isBlock b = true) : isBlock (f i b) = true := by
  obtain ⟨l, ks⟩ := b
  have hl : l.type = .blockStatement := of_decide_eq_true h
  obtain ⟨j, hj⟩ := hf.step i l ks (by simp [hl])
  rw [hj]
  exact decide_eq_true hl

theorem Passing.isDirective (b : Ast) : isDirective (f i b) = isDirective b := by
  have htype := hf.type_iff i (t := .expressionStatement) (by decide) b
  by_cases ht : b.type = .expressionStatement
  · obtain ⟨l, ks⟩ := b
    obtain ⟨j, hj⟩ := hf.step i l ks (by rw [← type_node l ks, ht]; decide)
    have hchild : child (.node l (mapKids (f j) ks)) .expression =
        f j (child (.node l ks) .expression) := child_mapKids (hf.hole j)
    have hlit := hf.type_iff j (t := .literal) (by decide) (child (.node l ks) .expression)
    rw [hj, XChainSdk.isDirective, XChainSdk.isDirective, hchild]
    by_cases hl : (child (.node l ks) .expression).type = .literal
    · rcases hf.label j (child (.node l ks) .expression) with heq | ⟨hmem, -⟩
      · rw [heq, show Ast.type (f j _) = _ from congrArg Label.type heq]
        rfl
      · rw [hl] at hmem
        simp at hmem
    · simp [hl, hlit]
  · simp [XChainSdk.isDirective, ht, htype]

theorem Passing.isGasStatement {b : Ast} (h : isGasStatement b = true) :
    isGasStatement (f i b) = true := by
  obtain ⟨l, ks⟩ := b
  rw [XChainSdk.isGasStatement, Bool.and_eq_true] at h
  have hl : l.type = .expressionStatement := of_decide_eq_true h.1
  obtain ⟨j, hj⟩ := hf.step i l ks (by simp [hl])
  rw [hj, XChainSdk.isGasStatement, child_mapKids (hf.hole j), hf.gas _ _ h.2, type_node, hl]
  rfl

theorem Passing.startsWithGas (h : startsWithGas ks = true) :
    startsWithGas (mapKids (f i) ks) = true := by
  cases ks with
  | nil => cases h
  | cons k ks => exact hf.isGasStatement i h

theorem Passing.isChargedBlock {b : Ast} (h : isChargedBlock b = true) :
    isChargedBlock (f i b) = true := by
  obtain ⟨l, ks⟩ := b
  rw [XChainSdk.isChargedBlock, Bool.and_eq_true] at h
  have hl : l.type = .blockStatement := of_decide_eq_true h.1
  have hstart : XChainSdk.startsWithGas ks = true := h.2
  obtain ⟨j, hj⟩ := hf.step i l ks (by simp [hl])
  rw [XChainSdk.isChargedBlock, hf.isBlock i h.1, hj, kids_node, hf.startsWithGas j hstart]
  rfl

theorem Passing.isChargedExpr {b : Ast} (h : isChargedExpr b = true) :
    isChargedExpr (f i b) = true := by
  obtain ⟨l, ks⟩ := b
  rw [XChainSdk.isChargedExpr, Bool.and_eq_true] at h
  obtain ⟨ht, hks⟩ := h
  have hl : l.type = .sequenceExpression := of_decide_eq_true ht
  obtain ⟨j, hj⟩ := hf.step i l ks (by simp [hl])
  rw [hj, XChainSdk.isChargedExpr, type_node, kids_node]
  cases ks with
  | nil => cases hks
  | cons k ks => simp only [hl, mapKids_cons, hf.gas _ _ hks, decide_true, Bool.and_self]

theorem dropWhile_mapKids : (mapKids (f i) ks).dropWhile (fun k => XChainSdk.isDirective k.2) =
    mapKids (f i) (ks.dropWhile fun k => XChainSdk.isDirective k.2) := by
  induction ks with
  | nil => rfl
  | cons k ks ih =>
    rw [mapKids_cons, List.dropWhile_cons, List.dropWhile_cons, hf.isDirective i]
    split_ifs
    · exact ih
    · rfl

theorem Passing.isEntered {b : Ast} (h : isEntered b = true) : isEntered (f i b) = true := by
  rw [XChainSdk.isEntered, Bool.or_eq_true, Bool.and_eq_true] at h ⊢
  rcases h with ⟨hblock, hstart⟩ | hexpr
  · refine .inl ⟨hf.isBlock i hblock, ?_⟩
    obtain ⟨l, ks⟩ := b
    have hl : l.type = .blockStatement := of_decide_eq_true hblock
    obtain ⟨j, hj⟩ := hf.step i l ks (by simp [hl])
    rw [hj, kids_node, dropWhile_mapKids hf]
    exact hf.startsWithGas j hstart
  · exact .inr (hf.isChargedExpr i hexpr)

/-- **What charges still does after such a pass.** -/
theorem Passing.isMetered (h : isMetered XChainSdk.isEntered (.node l ks) = true) :
    isMetered XChainSdk.isEntered (.node l (mapKids (f i) ks)) = true := by
  have hall : ∀ {field : Field} {p : Ast → Bool}, (∀ b, p b = true → p (f i b) = true) →
      (nodes (.node l ks) field).all p = true →
      (nodes (.node l (mapKids (f i) ks)) field).all p = true := by
    intro field p hp h
    rw [nodes_mapKids, List.all_map, List.all_eq_true]
    exact fun b hb => hp b (List.all_eq_true.1 h b hb)
  unfold XChainSdk.isMetered at h
  rw [type_node] at h
  split at h
  all_goals
    rename_i htype
    simp only [XChainSdk.isMetered, type_node, htype]
  iterate 2
    refine hall (fun b hb => ?_) h
    rw [Bool.and_eq_true] at hb ⊢
    exact hb.imp (hf.isBlock i) (hf.isEntered i)
  · exact hall (fun b => hf.isEntered i) h
  · rw [Bool.and_eq_true] at h ⊢
    refine ⟨hall (fun b => hf.isChargedBlock i) h.1, hall (fun u hu => ?_) h.2⟩
    rw [Bool.or_eq_true] at hu ⊢
    exact hu.imp (hf.gas i u) (hf.isChargedExpr i)
  iterate 4 exact hall (fun b => hf.isChargedBlock i) h
  · rw [Bool.and_eq_true] at h ⊢
    refine ⟨hall (fun b => hf.isChargedBlock i) h.1, hall (fun b hb => ?_) h.2⟩
    simp only [Bool.or_eq_true, isHole, decide_eq_true_eq] at hb ⊢
    refine hb.imp (fun hform => ?_) (hf.isChargedBlock i)
    exact hform.imp (hf.type_iff i (by decide) b).2 (hf.type_iff i (by decide) b).2
  · rw [nodes_mapKids]
    split
    · rfl
    · rename_i heq
      obtain ⟨stmt, rest, hks, rfl, -⟩ := List.map_eq_cons_iff.1 heq
      rw [hks] at h
      exact hf.isGasStatement i h
  · exact hall (fun b => hf.isChargedExpr i) h

end Passing

theorem isCallOf_mapKids {f : Ast → Ast} (hhole : f hole = hole)
    (hf : ∀ (name : String) (b : Ast), isNamed name (f b) = isNamed name b) (name : String) :
    isCallOf name (.node l (mapKids f ks)) = isCallOf name (.node l ks) := by
  rw [isCallOf_eq, isCallOf_eq, child_mapKids hhole, hf, type_node, type_node]

theorem type_of_isCallOf {name : String} {b : Ast} (h : isCallOf name b = true) :
    b.type = .callExpression := by
  simp only [isCallOf, Bool.and_eq_true, decide_eq_true_eq] at h
  exact h.1.1

theorem chargeEntry_of_type {a : Ast}
    (h : a.type ∉ NodeType.metered) (htry : a.type ≠ .tryStatement) : chargeEntry armed a = a := by
  unfold chargeEntry
  split
  all_goals first | rfl | simp_all [NodeType.metered]

theorem passing_injectBlockGas : Passing fun _ : Unit => injectBlockGas armed where
  label _ b := by
    obtain ⟨l, ks⟩ := b
    rw [injectBlockGas_node]
    by_cases htry : l.type = .tryStatement
    · have hmem := type_chargeEntry_try armed
        (a := .node l (mapKids (injectBlockGas armed) ks)) htry
      refine .inr ⟨by simp [htry], ?_⟩
      simp only [List.mem_cons, List.not_mem_nil, or_false] at hmem ⊢
      exact .inr hmem
    · exact .inl (label_chargeEntry (a := .node l (mapKids (injectBlockGas armed) ks)) htry)
  step _ l ks hl := by
    have hout : ∀ t ∈ [NodeType.hole, .program, .expressionStatement, .blockStatement,
        .sequenceExpression], t ∉ NodeType.metered ∧ t ≠ .tryStatement := by decide
    obtain ⟨hmetered, htry⟩ := hout _ hl
    refine ⟨(), ?_⟩
    rw [injectBlockGas_node]
    exact chargeEntry_of_type (a := .node l (mapKids (injectBlockGas armed) ks)) hmetered htry
  gas _ b hb := by
    have ht := type_of_isCallOf hb
    obtain ⟨l, ks⟩ := b
    rw [injectBlockGas_node, chargeEntry_of_type (by rw [type_node, ← type_node l ks, ht]; decide)
      (by rw [type_node, ← type_node l ks, ht]; decide),
      isCallOf_mapKids rfl isNamed_injectBlockGas]
    exact hb

theorem passing_injectBinaryDepthGas : Passing fun _ : Unit => injectBinaryDepthGas where
  label _ b := .inl (label_injectBinaryDepthGas b)
  step _ l ks hl := by
    refine ⟨(), ?_⟩
    rw [injectBinaryDepthGas_node, chargeChain, if_neg]
    rintro ⟨ht, -⟩
    rw [type_node] at ht
    simp [ht] at hl
  gas _ b hb := by
    have ht := type_of_isCallOf hb
    obtain ⟨l, ks⟩ := b
    rw [type_node] at ht
    rw [injectBinaryDepthGas_node, chargeChain, if_neg (by simp [ht]), isCallOf_mapKids rfl
      fun name b => isNamed_of_label (label_injectBinaryDepthGas b) name]
    exact hb

theorem isCharged_gas {b : Ast} (h : isCallOf "__gas" b = true) : isCharged b = false := by
  simp only [isCallOf, Bool.and_eq_true, decide_eq_true_eq] at h
  simp [isCharged, h.1.1, h.1.2, h.2]

theorem passing_chargeCalls : Passing chargeCalls where
  label place b := by
    obtain ⟨l, ks⟩ := b
    rw [chargeCalls_node, chargeCall]
    split_ifs with hcall
    · rw [Bool.and_eq_true] at hcall
      have ht : l.type = .callExpression := type_of_isCharged hcall.1
      exact .inr ⟨by simp [ht], by simp [wrapWithGas]⟩
    · exact .inl rfl
  step place l ks hl := by
    refine ⟨(place.2, l.type), ?_⟩
    rw [chargeCalls_node, chargeCall, if_neg]
    intro hcall
    rw [Bool.and_eq_true] at hcall
    have ht : l.type = .callExpression := type_of_isCharged hcall.1
    simp [ht] at hl
  gas place b hb := by
    obtain ⟨l, ks⟩ := b
    have hgas : isCallOf "__gas" (.node l (mapKids (chargeCalls (place.2, l.type)) ks)) = true :=
      (isCallOf_mapKids (chargeCalls_hole _) (isNamed_chargeCalls _) _).trans hb
    rw [chargeCalls_node, chargeCall, if_neg (by simp [isCharged_gas hgas])]
    exact hgas

theorem label_injectDepthGuards (b : Ast) : (injectDepthGuards armed b).label = b.label := by
  obtain ⟨l, ks⟩ := b
  rw [injectDepthGuards_node]
  exact label_guardDepth _

theorem passing_injectDepthGuards (armed : Option ArmedNames) :
    Passing fun _ : Unit => injectDepthGuards armed where
  label _ b := .inl (label_injectDepthGuards b)
  step _ l ks hl := by
    have hout : ∀ t ∈ [NodeType.hole, .program, .expressionStatement, .blockStatement,
        .sequenceExpression], t.isFunction = false := by decide
    refine ⟨(), ?_⟩
    rw [injectDepthGuards_node]
    exact guardDepth_of_type (a := .node l (mapKids (injectDepthGuards armed) ks)) (hout _ hl)
  gas _ b hb := by
    have ht := type_of_isCallOf hb
    obtain ⟨l, ks⟩ := b
    rw [type_node] at ht
    rw [injectDepthGuards_node, guardDepth_of_type (by simp [ht, NodeType.isFunction]),
      isCallOf_mapKids rfl fun name b => isNamed_of_label (label_injectDepthGuards b) name]
    exact hb

/-! ### Runs of the passes -/

theorem all_isMetered_injectBlockGas {a : Ast} (h : All Grammatical a) :
    All (fun s => isMetered isEntered s = true) (injectBlockGas armed a) :=
  all_rewrite a fun _ _ ho hkids => all_chargeEntry (neutral_isMetered _)
    (isMetered_chargeEntry ((h _ ho).mapKids keepsTypes_injectBlockGas)) (all_mapKids hkids)

theorem all_isMetered_injectBinaryDepthGas {a : Ast}
    (h : All (fun s => isMetered isEntered s = true) a) :
    All (fun s => isMetered isEntered s = true) (injectBinaryDepthGas a) :=
  all_rewrite a fun _ _ ho hkids => all_chargeChain (neutral_isMetered _)
    (fun b f hb _ _ => isMetered_of_type (by rw [type_update, hb]; decide))
    (all_node.2 ⟨passing_injectBinaryDepthGas.isMetered () (h _ ho), all_mapKids hkids⟩)

theorem all_isMetered_chargeCalls (place : Place) {a : Ast}
    (h : All (fun s => isMetered isEntered s = true) a) :
    All (fun s => isMetered isEntered s = true) (chargeCalls place a) := by
  refine all_rewriteFrom a (fun place l ks ho hkids => ?_) place
  have hnode : All (fun s => isMetered isEntered s = true)
      (.node l (mapKids (chargeCalls (place.2, l.type)) ks)) :=
    all_node.2 ⟨passing_chargeCalls.isMetered _ (h _ ho), all_mapKids hkids⟩
  change All _ (chargeCall place (.node l (mapKids (chargeCalls (place.2, l.type)) ks)))
  rw [chargeCall]
  split_ifs
  · exact all_wrapWithGas (neutral_isMetered _) hnode
  · exact hnode

/-! ### Calls -/

/-- A node that is no call, or a call of a hook. -/
def NoBareCall (a : Ast) : Prop := isCharged a = false ∨ DEPTH_HELPERS.any (isCallOf · a) = true

/-- Such a node, and if a walk may pass it by, such nodes under it. -/
structure CallsSettled (a : Ast) : Prop where
  self : NoBareCall a
  kids : a.type ∈ NodeType.passedBy → ∀ k ∈ a.kids, NoBareCall k.2

theorem callsCharged_iff (a : Ast) : callsCharged a = true ↔ ∀ k ∈ a.kids,
    (NoBareCall k.2 ∨ isChargedExpr a = true ∨ a.type ∈ NodeType.passedBy) ∧
      (a.type = .objectPattern ∨ (Ast.type k.2 ∈ NodeType.passedBy →
        ∀ j ∈ k.2.kids, NoBareCall j.2)) := by
  have hsettled : ∀ b : Ast, isSettled b = true ↔ NoBareCall b := fun b => by
    simp [isSettled, NoBareCall]
  rw [callsCharged, List.all_eq_true]
  refine forall₂_congr fun k _ => ?_
  simp only [Bool.and_eq_true, Bool.or_eq_true, hsettled, List.contains_iff_mem, decide_eq_true_eq,
    Bool.not_eq_true', List.all_eq_true, or_assoc, ← Bool.not_eq_true, ← imp_iff_not_or]
  rfl

theorem callsCharged_of_settled {a : Ast} (h : ∀ k ∈ a.kids, CallsSettled k.2) :
    callsCharged a = true :=
  (callsCharged_iff a).2 fun k hk => ⟨.inl (h k hk).self, .inr (h k hk).kids⟩

theorem settled_of_callsCharged {a : Ast} (h : callsCharged a = true)
    (ha : a.type ∉ [.sequenceExpression, .objectPattern, .property, .restElement]) :
    ∀ k ∈ a.kids, CallsSettled k.2 := by
  intro k hk
  simp only [List.mem_cons, List.not_mem_nil, or_false, not_or] at ha
  obtain ⟨hself, hkids⟩ := (callsCharged_iff a).1 h k hk
  have hexpr : isChargedExpr a = false := by simp [isChargedExpr, ha.1]
  refine ⟨?_, hkids.resolve_left ha.2.1⟩
  simpa [hexpr, NodeType.passedBy, ha.2.2] using hself

theorem settled_of_type {a : Ast} (h : a.type ∉ [.callExpression, .property, .restElement]) :
    CallsSettled a := by
  simp only [List.mem_cons, List.not_mem_nil, or_false, not_or] at h
  exact ⟨.inl (Bool.eq_false_iff.2 fun hc => h.1 (type_of_isCharged hc)),
    fun hmem => absurd hmem (by simp [NodeType.passedBy, h.2])⟩

/-- A call that is found in its parent is charged there. -/
theorem isCharged_chargeCalls {place : Place} (hplace : isFound place = true) (a : Ast) :
    isCharged (chargeCalls place a) = false := by
  obtain ⟨l, ks⟩ := a
  rw [chargeCalls_node, chargeCall, hplace, Bool.and_true]
  split_ifs with hcall
  · rfl
  · simpa using hcall

theorem isFound_of_ne {place : Place} (h : place.1 ≠ .objectPattern) : isFound place = true := by
  simp [isFound, h]

/-- The branches of a node are settled, where they are found. -/
theorem callsCharged_mapKids_chargeCalls (grand : NodeType) (l : Label) (ks : List (Field × Ast)) :
    callsCharged (.node l (mapKids (chargeCalls (grand, l.type)) ks)) = true := by
  rw [callsCharged_iff]
  intro k hk
  obtain ⟨j, -, rfl⟩ := mem_mapKids.1 hk
  refine ⟨?_, ?_⟩
  · by_cases hpassed : l.type ∈ NodeType.passedBy
    · exact .inr (.inr hpassed)
    · exact .inl (.inl (isCharged_chargeCalls (by simp [isFound, hpassed]) j.2))
  · by_cases hpattern : l.type = .objectPattern
    · exact .inl hpattern
    · refine .inr fun hpassed i hi => ?_
      -- a property is no call, so that it stands where it stood
      obtain ⟨field, b⟩ := j
      obtain ⟨lj, kj⟩ := b
      have hnot : isCharged (.node lj (mapKids (chargeCalls (l.type, lj.type)) kj)) = false := by
        refine Bool.eq_false_iff.2 fun hcall => ?_
        have htype : lj.type = .callExpression := type_of_isCharged hcall
        dsimp only at hpassed
        rw [chargeCalls_node, chargeCall] at hpassed
        split_ifs at hpassed
        · simp [wrapWithGas, NodeType.passedBy] at hpassed
        · simp [htype, NodeType.passedBy] at hpassed
      dsimp only at hi
      rw [chargeCalls_node, chargeCall, hnot, Bool.false_and, if_neg (by decide), kids_node] at hi
      obtain ⟨b, -, rfl⟩ := mem_mapKids.1 hi
      exact .inl (isCharged_chargeCalls (isFound_of_ne hpattern) b.2)

/-- **No call that is found is left without a charge.** -/
theorem all_callsCharged_chargeCalls (place : Place) (a : Ast) :
    All (fun s => callsCharged s = true) (chargeCalls place a) := by
  refine all_rewriteFrom a (fun place l ks _ hkids => ?_) place
  have hnode : All (fun s => callsCharged s = true)
      (.node l (mapKids (chargeCalls (place.2, l.type)) ks)) :=
    all_node.2 ⟨callsCharged_mapKids_chargeCalls _ l ks, all_mapKids hkids⟩
  change All _ (chargeCall place (.node l (mapKids (chargeCalls (place.2, l.type)) ks)))
  rw [chargeCall]
  split_ifs with hcall
  · rw [Bool.and_eq_true] at hcall
    have ht : l.type = .callExpression := type_of_isCharged hcall.1
    have hgas : All (fun s => callsCharged s = true) gasCallExpr := all_of_check (by decide)
    refine all_listNode ((callsCharged_iff _).2 fun k hk => ⟨.inr (.inl rfl), .inr fun hmem => ?_⟩)
      fun b hb => ?_
    · simp only [listNode, kids_node, List.map_cons, List.map_nil, List.mem_cons,
        List.not_mem_nil, or_false] at hk
      rcases hk with rfl | rfl
      · exact absurd hmem (by decide)
      · simp [ht, NodeType.passedBy] at hmem
    · simp only [List.mem_cons, List.not_mem_nil, or_false] at hb
      rcases hb with rfl | rfl
      exacts [hgas, hnode]
  · exact hnode

/-! ### Guards -/

/-- A node of a metered source. -/
def IsCharged (fn : Ast → Bool) (a : Ast) : Prop :=
  isMetered fn a = true ∧ callsCharged a = true

theorem isGuardedBody_wrapDepthGuard {guard : Option (ℕ × ArmedNames)}
    (hl : l.type = .blockStatement)
    (h : isChargedRest (.node { type := .blockStatement } (ks.dropWhile fun k => isDirective k.2)) =
      true) : isGuardedBody (wrapDepthGuard guard (.node l ks)) = true := by
  obtain ⟨enter, handler, finalizer, henter, hdir, heq⟩ := wrapDepthGuard_eq guard
  have hdirs : ∀ k ∈ ks.takeWhile fun k => isDirective k.2, isDirective k.2 = true :=
    fun k hk => List.mem_takeWhile_imp (p := fun k : Field × Ast => isDirective k.2) hk
  rw [heq, isGuardedBody, kids_node, List.dropWhile_append_of_pos hdirs,
    List.dropWhile_cons_of_neg (by simp [hdir])]
  simp only [isBlock, type_node, hl, henter, tryStatement]
  exact h

theorem isGuardedBody_entered {guard : Option (ℕ × ArmedNames)} {b : Ast} (hb : isBlock b = true)
    (h : isEntered b = true) : isGuardedBody (wrapDepthGuard guard b) = true := by
  obtain ⟨l, ks⟩ := b
  have hl : l.type = .blockStatement := of_decide_eq_true hb
  have hstart : startsWithGas (ks.dropWhile fun k => isDirective k.2) = true := by
    have hnot : isChargedExpr (.node l ks) = false := by simp [isChargedExpr, hl]
    simpa [isEntered, hb, hnot] using h
  refine isGuardedBody_wrapDepthGuard hl ?_
  cases hrest : ks.dropWhile fun k => isDirective k.2 with
  | nil =>
    rw [hrest] at hstart
    cases hstart
  | cons k rest =>
    rw [hrest] at hstart
    have hgas : isGasStatement k.2 = true := hstart
    simp [isChargedRest, isBlock, hgas]

theorem isGuardedBody_return {guard : Option (ℕ × ArmedNames)} {e : Ast}
    (h : isChargedExpr e = true) : isGuardedBody (wrapDepthGuard guard (returnBlock e)) = true := by
  refine isGuardedBody_wrapDepthGuard rfl ?_
  have hchild : child (.node { type := .returnStatement } [(.argument, e)]) .argument = e := rfl
  simp [isChargedRest, isBlock, isDirective, hchild, h]

/-- A part of a guarded body. -/
structure Part (a : Ast) : Prop where
  all : All (IsCharged isGuardedBody) a
  settled : CallsSettled a

/-- The types of the nodes that a guard adds. -/
def NodeType.guards : List NodeType :=
  [.hole, .identifier, .literal, .blockStatement, .tryStatement, .catchClause, .returnStatement,
    .variableDeclaration, .variableDeclarator, .expressionStatement, .throwStatement]

theorem part_node (hl : l.type ∈ NodeType.guards) (h : ∀ k ∈ ks, Part k.2) : Part (.node l ks) := by
  have hout : ∀ t ∈ NodeType.guards, t ∉ NodeType.metered ∧
      t ∉ [NodeType.callExpression, .property, .restElement] := by decide
  obtain ⟨hmetered, hcall⟩ := hout _ hl
  exact ⟨all_node.2 ⟨⟨isMetered_of_type hmetered,
    callsCharged_of_settled fun k hk => (h k hk).settled⟩, fun k hk => (h k hk).all⟩,
    settled_of_type hcall⟩

theorem part_ident (name : String) : Part (astIdent name) :=
  part_node (by simp [NodeType.guards]) (List.forall_mem_nil _)

theorem part_literal (v : LiteralValue) : Part (astLiteral v) :=
  part_node (by simp [NodeType.guards]) (List.forall_mem_nil _)

/-- A call of a hook of the guard. -/
theorem part_call {name : String} (hname : name ∈ DEPTH_HELPERS) {args : List Ast}
    (h : ∀ b ∈ args, Part b) : Part (astCall name args) := by
  have hkids : ∀ k ∈ (astCall name args).kids, Part k.2 := by
    intro k hk
    rcases List.mem_cons.1 hk with rfl | hk
    · exact part_ident name
    · obtain ⟨b, hb, rfl⟩ := List.mem_map.1 hk
      exact h b hb
  refine ⟨all_node.2 ⟨⟨isMetered_of_type (by simp [NodeType.metered]),
    callsCharged_of_settled fun k hk => (hkids k hk).settled⟩,
    fun k hk => (hkids k hk).all⟩, .inr (List.any_eq_true.2 ⟨name, hname, ?_⟩), fun hmem => ?_⟩
  · simp [isCallOf, astCall, child, nodes, astIdent]
  · exact absurd hmem (by simp [astCall, NodeType.passedBy])

theorem part_expressionStatement {e : Ast} (h : Part e) : Part (expressionStatement e) :=
  part_node (by simp [NodeType.guards]) fun k hk => by rwa [List.mem_singleton.1 hk]

theorem part_block {stmts : List Ast} (h : ∀ b ∈ stmts, Part b) : Part (blockStatement stmts) :=
  part_node (by simp [NodeType.guards]) fun k hk => by
    obtain ⟨b, hb, rfl⟩ := List.mem_map.1 hk
    exact h b hb

theorem part_depthExit {args : List Ast} (h : ∀ b ∈ args, Part b) : Part (depthExit args) :=
  part_expressionStatement (part_call (by decide) h)

theorem part_depthEnter (weight : ℕ) (token : String) : Part (depthEnter weight token) := by
  refine part_node (by simp [NodeType.guards]) fun k hk => ?_
  rw [List.mem_singleton.1 hk]
  refine part_node (by simp [NodeType.guards]) fun j hj => ?_
  simp only [List.mem_cons, List.not_mem_nil, or_false] at hj
  rcases hj with rfl | rfl
  · exact part_ident token
  · exact part_call (by decide) (by simpa using part_literal _)

theorem part_tryStatement {block handler finalizer : Ast} (hb : Part block) (hh : Part handler)
    (hf : Part finalizer) : Part (tryStatement block handler finalizer) :=
  part_node (by simp [NodeType.guards]) fun k hk => by
    simp only [List.mem_cons, List.not_mem_nil, or_false] at hk
    rcases hk with rfl | rfl | rfl
    exacts [hb, hh, hf]

/-- The statements around a guarded body are charged where the body is. -/
theorem part_wrapDepthGuard (guard : Option (ℕ × ArmedNames)) (hl : l.type = .blockStatement)
    (h : ∀ k ∈ ks, Part k.2) : Part (wrapDepthGuard guard (.node l ks)) := by
  have hrest : Part (.node { type := .blockStatement } (ks.dropWhile fun k => isDirective k.2)) :=
    part_node (by simp [NodeType.guards]) fun k hk => h k (List.dropWhile_subset _ hk)
  refine part_node (by simp [NodeType.guards, hl]) fun k hk => ?_
  rcases List.mem_append.1 hk with hk | hk
  · exact h k (List.takeWhile_subset _ hk)
  cases guard with
  | none =>
    simp only [List.mem_cons, List.not_mem_nil, or_false] at hk
    rcases hk with rfl | rfl
    · exact part_expressionStatement (part_call (by decide) (by simp))
    · exact part_tryStatement hrest (part_node (by decide) (List.forall_mem_nil _))
        (part_block (by simpa using (part_depthExit (by simp) : Part (depthExit []))))
  | some pair =>
    obtain ⟨weight, names⟩ := pair
    simp only [List.mem_cons, List.not_mem_nil, or_false] at hk
    rcases hk with rfl | rfl
    · exact part_depthEnter weight names.token
    · refine part_tryStatement hrest (part_node (by simp [NodeType.guards]) fun j hj => ?_)
        (part_block ?_)
      · simp only [List.mem_cons, List.not_mem_nil, or_false] at hj
        rcases hj with rfl | rfl
        · exact part_ident _
        · refine part_block fun b hb => ?_
          simp only [List.mem_cons, List.not_mem_nil, or_false] at hb
          rcases hb with rfl | rfl
          · exact part_depthExit (by simpa using part_ident _)
          · refine part_node (by simp [NodeType.guards]) fun i hi => ?_
            rw [List.mem_singleton.1 hi]
            exact part_ident _
      · simpa using part_depthExit (by simpa using ⟨part_ident _, part_literal _⟩)

theorem isCallOf_injectDepthGuards (name : String) (b : Ast) :
    isCallOf name (injectDepthGuards armed b) = isCallOf name b := by
  obtain ⟨l, ks⟩ := b
  by_cases ht : l.type = .callExpression
  · rw [injectDepthGuards_node, guardDepth_of_type (by simp [ht, NodeType.isFunction]),
      isCallOf_mapKids rfl fun name b => isNamed_of_label (label_injectDepthGuards b) name]
  · have htype : (injectDepthGuards armed (.node l ks)).type ≠ .callExpression := by
      rw [Ast.type, label_injectDepthGuards]
      exact ht
    simp [isCallOf, ht, htype]

/-- A call stays the call of what it calls. -/
theorem isCharged_injectDepthGuards (b : Ast) :
    isCharged (injectDepthGuards armed b) = isCharged b := by
  have hlabel : ∀ c : Ast, (injectDepthGuards armed c).label = c.label := label_injectDepthGuards
  have htype : ∀ c : Ast, (injectDepthGuards armed c).type = c.type :=
    fun c => congrArg Label.type (hlabel c)
  have hchild : ∀ {c : Ast} {t : NodeType}, c.type = t → t.isFunction = false → ∀ field,
      (injectDepthGuards armed c).child field = injectDepthGuards armed (c.child field) := by
    rintro ⟨l, ks⟩ t rfl ht field
    rw [injectDepthGuards_node, guardDepth_of_type (by exact ht), child_mapKids rfl]
  by_cases hcall : b.type = .callExpression
  · by_cases hmember : (b.child .callee).type = .memberExpression
    · simp [isCharged, htype, hlabel, hchild hcall rfl, hmember, hchild hmember rfl]
    · simp [isCharged, htype, hlabel, hchild hcall rfl, hmember]
  · simp [isCharged, htype, hcall]

theorem noBareCall_injectDepthGuards {b : Ast} (h : NoBareCall b) :
    NoBareCall (injectDepthGuards armed b) := by
  rw [NoBareCall, isCharged_injectDepthGuards]
  refine h.imp_right fun hdepth => ?_
  obtain ⟨name, hname, hb⟩ := List.any_eq_true.1 hdepth
  exact List.any_eq_true.2 ⟨name, hname, by rwa [isCallOf_injectDepthGuards]⟩

/-- What a guard makes of the body of a function. -/
theorem guarded_block (guard : Option (ℕ × ArmedNames)) {b : Ast} (hblock : isBlock b = true)
    (hentered : isEntered b = true) (h : Part b) :
    Part (wrapDepthGuard guard b) ∧ isGuardedBody (wrapDepthGuard guard b) = true := by
  refine ⟨?_, isGuardedBody_entered hblock hentered⟩
  obtain ⟨l, ks⟩ := b
  have hl : l.type = .blockStatement := of_decide_eq_true hblock
  have hsettled := settled_of_callsCharged h.all.self.2 (by simp [hl])
  exact part_wrapDepthGuard guard hl fun k hk => ⟨h.all.kid hk, hsettled k hk⟩

theorem guarded_return (guard : Option (ℕ × ArmedNames)) {e : Ast}
    (hexpr : isChargedExpr e = true) (h : Part e) :
    Part (wrapDepthGuard guard (returnBlock e)) ∧
      isGuardedBody (wrapDepthGuard guard (returnBlock e)) = true := by
  refine ⟨part_wrapDepthGuard guard rfl fun k hk => ?_, isGuardedBody_return hexpr⟩
  rw [List.mem_singleton.1 hk]
  exact part_node (by simp [NodeType.guards]) fun j hj => by rwa [List.mem_singleton.1 hj]

/-- The calls of a node stay charged when its branches are guarded. -/
theorem callsCharged_mapKids_injectDepthGuards (h : callsCharged (.node l ks) = true) :
    callsCharged (.node l (mapKids (injectDepthGuards armed) ks)) = true := by
  rw [callsCharged_iff] at h ⊢
  intro k hk
  obtain ⟨j, hj, rfl⟩ := mem_mapKids.1 hk
  obtain ⟨hself, hkids⟩ := h j hj
  refine ⟨hself.imp noBareCall_injectDepthGuards (Or.imp_left fun hexpr => ?_),
    hkids.imp_right fun hsettled hpassed i hi => ?_⟩
  · have hseq : l.type = .sequenceExpression := by
      simp only [isChargedExpr, Bool.and_eq_true] at hexpr
      exact of_decide_eq_true hexpr.1
    have hpass := (passing_injectDepthGuards armed).isChargedExpr () hexpr
    obtain ⟨-, hstep⟩ := (passing_injectDepthGuards armed).step () l ks (by simp [hseq])
    rwa [hstep] at hpass
  · -- a property is no function, so that its branches are guarded where they stand
    dsimp only at hpassed hi
    rw [Ast.type, label_injectDepthGuards, ← Ast.type] at hpassed
    have hfn : ∀ t ∈ NodeType.passedBy, t.isFunction = false := by decide
    obtain ⟨field, b⟩ := j
    obtain ⟨lb, kb⟩ := b
    rw [injectDepthGuards_node, guardDepth_of_type
      (a := .node lb (mapKids (injectDepthGuards armed) kb)) (hfn _ hpassed), kids_node] at hi
    obtain ⟨c, hc, rfl⟩ := mem_mapKids.1 hi
    exact noBareCall_injectDepthGuards (hsettled hpassed c hc)

/-- The guard stands in the place of the body that a function charges on entry. -/
theorem exists_guarded_body (armed : Option ArmedNames) (hfn : l.type.isFunction = true)
    (hm : isMetered isEntered (.node l ks) = true) (hpart : ∀ k ∈ ks, Part k.2) :
    ∃ g : Ast → Ast, guardDepth armed (.node l ks) = .node l (updateKids .body g ks) ∧
      ∀ b, (.body, b) ∈ ks → Part (g b) ∧ isGuardedBody (g b) = true := by
  obtain ⟨guard, heq⟩ := guardDepth_eq armed (a := .node l ks) hfn
  unfold isMetered at hm
  rw [type_node] at hm
  by_cases harrow : l.type = .arrowFunctionExpression
  · -- an arrow that was an expression returns it
    have hentered : (nodes (.node l ks) .body).all isEntered = true := by
      rw [harrow] at hm
      exact hm
    refine ⟨fun b => if isBlock b then wrapDepthGuard guard b
      else wrapDepthGuard guard (returnBlock b), ?_, fun b hb => ?_⟩
    · rw [heq, blockBodied_of_arrow (a := .node l ks) harrow, update_node, update_node,
        updateKids_updateKids]
      refine congrArg _ (updateKids_congr fun b _ => ?_)
      have hreturn : isBlock (returnBlock b) = true := rfl
      split_ifs <;> simp_all
    · have hb' := List.all_eq_true.1 hentered b (mem_nodes.2 hb)
      dsimp only
      split_ifs with hblock
      · exact guarded_block guard hblock hb' (hpart _ hb)
      · refine guarded_return guard ?_ (hpart _ hb)
        simpa [isEntered, hblock] using hb'
  · have hentered : (nodes (.node l ks) .body).all (fun b => isBlock b && isEntered b) = true := by
      split at hm
      all_goals first | exact hm | simp_all [NodeType.isFunction]
    refine ⟨fun b => if isBlock b then wrapDepthGuard guard b else b, ?_, fun b hb => ?_⟩
    · rw [heq, blockBodied_of_ne (a := .node l ks) harrow]
      rfl
    · have hb' := List.all_eq_true.1 hentered b (mem_nodes.2 hb)
      rw [Bool.and_eq_true] at hb'
      simp only [hb'.1, if_true]
      exact guarded_block guard hb'.1 hb'.2 (hpart _ hb)

/-- A function is charged when what stands in the place of its body is. -/
theorem all_isCharged_updateKids {g : Ast → Ast} (hfn : l.type.isFunction = true)
    (hpart : ∀ k ∈ ks, Part k.2)
    (hguarded : ∀ b, (.body, b) ∈ ks → Part (g b) ∧ isGuardedBody (g b) = true) :
    All (IsCharged isGuardedBody) (.node l (updateKids .body g ks)) := by
  have hkids : ∀ k ∈ updateKids .body g ks, Part k.2 := by
    intro k hk
    rcases mem_updateKids hk with hmem | ⟨b, hb, rfl⟩
    · exact hpart k hmem
    · exact (hguarded b hb).1
  have hbodies : (nodes (.node l (updateKids .body g ks)) .body).all isGuardedBody = true := by
    rw [← update_node, nodes_update, List.all_map, List.all_eq_true]
    exact fun b hb => (hguarded b (mem_nodes.1 hb)).2
  have hblocks : (nodes (.node l (updateKids .body g ks)) .body).all
      (fun b => isBlock b && isGuardedBody b) = true := by
    refine List.all_eq_true.2 fun b hb => ?_
    have hbody := List.all_eq_true.1 hbodies b hb
    rw [hbody, Bool.and_true]
    rw [isGuardedBody, Bool.and_eq_true] at hbody
    exact hbody.1
  refine all_node.2 ⟨⟨?_, callsCharged_of_settled fun k hk => (hkids k hk).settled⟩,
    fun k hk => (hkids k hk).all⟩
  unfold isMetered
  rw [type_node]
  split
  · exact hblocks
  · exact hblocks
  · exact hbodies
  all_goals simp_all [NodeType.isFunction]

/-- **The guards leave every charge in its place.** -/
theorem all_isCharged_injectDepthGuards {a : Ast} (h : All (IsCharged isEntered) a) :
    All (IsCharged isGuardedBody) (injectDepthGuards armed a) := by
  refine all_rewrite a fun l ks ho hkids => ?_
  obtain ⟨hmetered, hcalls⟩ := h _ ho
  change ∀ k ∈ ks, All (IsCharged isGuardedBody) (injectDepthGuards armed k.2) at hkids
  change All (IsCharged isGuardedBody)
    (guardDepth armed (.node l (mapKids (injectDepthGuards armed) ks)))
  have hm := (passing_injectDepthGuards armed).isMetered () hmetered
  have hc : callsCharged (.node l (mapKids (injectDepthGuards armed) ks)) = true :=
    callsCharged_mapKids_injectDepthGuards hcalls
  by_cases hfn : l.type.isFunction = true
  · -- a function is none of the nodes that may hold a bare call
    have hnot : l.type ∉ [NodeType.sequenceExpression, .objectPattern, .property, .restElement] := by
      intro hmem
      simp only [List.mem_cons, List.not_mem_nil, or_false] at hmem
      rcases hmem with heq | heq | heq | heq <;> simp [heq, NodeType.isFunction] at hfn
    have hpart : ∀ k ∈ mapKids (injectDepthGuards armed) ks, Part k.2 := fun k hk =>
      ⟨all_mapKids hkids k hk, settled_of_callsCharged hc hnot k hk⟩
    obtain ⟨g, hg, hguarded⟩ := exists_guarded_body armed hfn hm hpart
    rw [hg]
    exact all_isCharged_updateKids hfn hpart hguarded
  · rw [guardDepth_of_type (by simpa using hfn)]
    refine all_node.2 ⟨⟨?_, hc⟩, all_mapKids hkids⟩
    rw [isMetered_congr isGuardedBody isEntered (by simpa using hfn)]
    exact hm

/-! ### Metered sources -/

/-- A source that charges after its directives. -/
def isEnteredProgram (a : Ast) : Bool := startsWithGas (a.kids.dropWhile fun k => isDirective k.2)

theorem isEnteredProgram_mapKids {ι : Type} {f : ι → Ast → Ast} (hf : Passing f) (i : ι)
    (h : isEnteredProgram (.node l ks) = true) :
    isEnteredProgram (.node l (mapKids (f i) ks)) = true := by
  rw [isEnteredProgram, kids_node, dropWhile_mapKids hf]
  exact hf.startsWithGas i h

theorem isEnteredProgram_injectCharges {a : Ast} (ha : a.type = .program) :
    isEnteredProgram (injectCharges armed a) = true := by
  have hentry : isEnteredProgram (insertGasAfterDirectives a) = true := startsWithGas_insertGas a
  have hprogram : (insertGasAfterDirectives a).type = .program := (type_insertGas a).trans ha
  rw [injectCharges]
  generalize insertGasAfterDirectives a = b at hentry hprogram
  obtain ⟨l, ks⟩ := b
  have hl : l.type ∈ [NodeType.hole, .program, .expressionStatement, .blockStatement,
      .sequenceExpression] := by
    rw [show l.type = .program from hprogram]
    decide
  have hgas : Passing fun _ : Unit => injectBlockGas armed := passing_injectBlockGas
  obtain ⟨-, hblock⟩ := hgas.step () l ks hl
  obtain ⟨-, hchain⟩ :=
    passing_injectBinaryDepthGas.step () l (mapKids (injectBlockGas armed) ks) hl
  obtain ⟨-, hguard⟩ := (passing_injectDepthGuards armed).step () l
    (mapKids (chargeCalls (.hole, l.type))
      (mapKids injectBinaryDepthGas (mapKids (injectBlockGas armed) ks))) hl
  rw [hblock, hchain, injectCallGas, hguard]
  exact isEnteredProgram_mapKids (passing_injectDepthGuards armed) () (isEnteredProgram_mapKids
    passing_chargeCalls _ (isEnteredProgram_mapKids passing_injectBinaryDepthGas ()
      (isEnteredProgram_mapKids passing_injectBlockGas () hentry)))

theorem all_isCharged_injectCharges {a : Ast} (ha : a.type = .program) (h : All Grammatical a) :
    All (IsCharged isGuardedBody) (injectCharges armed a) := by
  have hentry : All Grammatical (insertGasAfterDirectives a) := by
    have hgas : All Grammatical gasCallStatement :=
      (all_of_check (p := fun b : Ast => b.type ∉ NodeType.ruled) (by decide)).mono
        fun _ hb => grammatical_of_type (of_decide_eq_true hb)
    obtain ⟨l, ks⟩ := a
    rw [type_node] at ha
    refine all_node.2 ⟨grammatical_of_type (by rw [type_node, ha]; decide), fun k hk => ?_⟩
    rcases List.mem_append.1 hk with hk | hk
    · exact h.kid (List.takeWhile_subset _ hk)
    · rcases List.mem_cons.1 hk with rfl | hk
      · exact hgas
      · exact h.kid (List.dropWhile_subset _ hk)
  have hcharged : All (fun s => isMetered isEntered s = true)
      (injectBlockGas armed (insertGasAfterDirectives a)) := all_isMetered_injectBlockGas hentry
  have hchains := all_isMetered_injectBinaryDepthGas hcharged
  refine all_isCharged_injectDepthGuards ?_
  have hprogram : (injectBinaryDepthGas (injectBlockGas armed (insertGasAfterDirectives a))).type =
      .program := by
    have hkept : SameKind _ (injectBlockGas armed _) :=
      keepsTypes_injectBlockGas (insertGasAfterDirectives a)
    have hkept' := keepsTypes_injectBinaryDepthGas
      (injectBlockGas armed (insertGasAfterDirectives a))
    exact hkept'.type_eq (hkept.type_eq ((type_insertGas a).trans ha) (by decide) (by decide))
      (by decide) (by decide)
  generalize injectBinaryDepthGas (injectBlockGas armed (insertGasAfterDirectives a)) = b
    at hchains hprogram
  obtain ⟨l, ks⟩ := b
  have hl : l.type = .program := hprogram
  have hmetered : ∀ {ks : List (Field × Ast)}, isMetered isEntered (.node l ks) = true :=
    fun {ks} => isMetered_of_type (a := .node l ks) (by rw [type_node, hl]; decide)
  exact all_node.2 ⟨⟨hmetered, callsCharged_mapKids_chargeCalls _ l ks⟩, all_mapKids fun k hk =>
    (all_isMetered_chargeCalls _ (hchains.kid hk)).and (all_callsCharged_chargeCalls _ k.2)⟩

/-- The guard of a source leaves its charges. -/
theorem all_isCharged_chargeTopLevelFrame (names : ArmedNames) {a : Ast} (ha : a.type = .program)
    (h : All (IsCharged isGuardedBody) a) :
    All (IsCharged isGuardedBody) (chargeTopLevelFrame names a) := by
  obtain ⟨l, ks⟩ := a
  have hl : l.type = .program := ha
  have hsettled := settled_of_callsCharged h.self.2 (by simp [hl])
  have hpart : ∀ k ∈ ks, Part k.2 := fun k hk => ⟨h.kid hk, hsettled k hk⟩
  have hparts : ∀ k ∈ (chargeTopLevelFrame names (.node l ks)).kids, Part k.2 := by
    intro k hk
    simp only [chargeTopLevelFrame, kids_node, List.mem_append, List.mem_cons, List.not_mem_nil,
      or_false] at hk
    rcases hk with (hk | rfl | hk) | rfl
    · exact hpart k (List.mem_of_mem_take hk)
    · exact part_depthEnter _ _
    · exact hpart k (List.mem_of_mem_drop hk)
    · exact part_depthExit (by simpa using ⟨part_ident _, part_literal _⟩)
  have htype : (chargeTopLevelFrame names (.node l ks)).type ∉ NodeType.metered := by
    change l.type ∉ NodeType.metered
    rw [hl]
    decide
  exact all_node.2 ⟨⟨isMetered_of_type htype,
    callsCharged_of_settled fun k hk => (hparts k hk).settled⟩, fun k hk => (hparts k hk).all⟩

theorem isEnteredProgram_chargeTopLevelFrame (names : ArmedNames) {a : Ast}
    (h : isEnteredProgram a = true) : isEnteredProgram (chargeTopLevelFrame names a) = true := by
  obtain ⟨l, ks⟩ := a
  rw [isEnteredProgram, kids_node] at h
  have hdirs : ∀ k ∈ ks.takeWhile fun k => isDirective k.2, isDirective k.2 = true :=
    fun k hk => List.mem_takeWhile_imp (p := fun k : Field × Ast => isDirective k.2) hk
  have hsplit := List.takeWhile_append_dropWhile (p := fun k : Field × Ast => isDirective k.2)
    (l := ks)
  cases hrest : ks.dropWhile fun k => isDirective k.2 with
  | nil =>
    rw [hrest] at h
    cases h
  | cons g rest =>
    rw [hrest] at h hsplit
    have hgas : isGasStatement g.2 = true := h
    have htake : ks.take (directivePrologueLength ks + 1) =
        (ks.takeWhile fun k => isDirective k.2) ++ [g] := by
      have hlist : ((ks.takeWhile fun k => isDirective k.2) ++ g :: rest).take
          ((ks.takeWhile fun k => isDirective k.2).length + 1) =
          (ks.takeWhile fun k => isDirective k.2) ++ (g :: rest).take 1 :=
        List.take_length_add_append 1
      rwa [hsplit] at hlist
    rw [isEnteredProgram, chargeTopLevelFrame, kids_node, kids_node, htake, List.append_assoc,
      List.append_assoc, List.dropWhile_append_of_pos hdirs, List.singleton_append,
      List.dropWhile_cons_of_neg (by simp [isDirective_gas hgas])]
    exact hgas

end XChainSdk
