import Mathlib.Data.List.TakeWhile
import XChainSdk.Contract.MeteringInversion

/-!
# Taking the depth guards out again

* `unguard` : takes the guard of a function out of its body, and the guard of a source out of it.
* `unguard_injectDepthGuards`, `unguard_chargeTopLevelFrame` : what guards a source is taken out.
* `eraseCharges_injectCharges` : **all that the passes add to a source is taken out again**.
-/

namespace XChainSdk

open Rose Ast

variable {armed : Option ArmedNames} {l : Label} {ks : List (Field × Ast)}

/-- The statement that counts a depth. -/
def isDepthEnter (a : Ast) : Bool :=
  let d := a.child .declarations
  a.type = .expressionStatement && isCallOf "__depth_enter" (a.child .expression) ||
    a.type = .variableDeclaration && d.type = .variableDeclarator &&
      isCallOf "__depth_enter" (d.child .init)

/-- The statement that gives a depth back. -/
def isDepthExit (a : Ast) : Bool :=
  a.type = .expressionStatement && isCallOf "__depth_exit" (a.child .expression)

/-- The statements that a guarded body guards. -/
def unguardBody (a : Ast) : Ast :=
  match a.kids.dropWhile fun k => isDirective k.2 with
  | [(_, enter), (_, t)] =>
    if isDepthEnter enter then
      .node a.label ((a.kids.takeWhile fun k => isDirective k.2) ++ (child t .block).kids)
    else a
  | _ => a

/-- One node without its guard, and an arrow with a block. -/
def unguardNode (a : Ast) : Ast :=
  match a.type with
  | .blockStatement => unguardBody a
  | .program => .node a.label (a.kids.filter fun k => !(isDepthEnter k.2 || isDepthExit k.2))
  | .arrowFunctionExpression => blockBodied a
  | _ => a

/-- A source without its guards. -/
def unguard (a : Ast) : Ast := rewrite unguardNode a

theorem unguard_node : unguard (.node l ks) = unguardNode (.node l (mapKids unguard ks)) :=
  rewrite_node _ l ks

theorem unguard_of_type (h : l.type ∉ [.blockStatement, .program, .arrowFunctionExpression]) :
    unguard (.node l ks) = .node l (mapKids unguard ks) := by
  simp only [List.mem_cons, not_or, List.not_mem_nil, not_false_eq_true, and_true] at h
  rw [unguard_node, unguardNode]
  split
  · exact absurd ‹_› h.1
  · exact absurd ‹_› h.2.1
  · exact absurd ‹_› h.2.2
  · rfl

theorem label_blockBodied (a : Ast) : (blockBodied a).label = a.label := by
  rw [blockBodied]
  split_ifs
  · rfl
  · rfl

theorem label_unguardBody (a : Ast) : (unguardBody a).label = a.label := by
  rw [unguardBody]
  split
  · split_ifs
    · rfl
    · rfl
  · rfl

theorem label_unguard (a : Ast) : (unguard a).label = a.label := by
  obtain ⟨l, ks⟩ := a
  rw [unguard_node, unguardNode]
  split
  · exact label_unguardBody _
  · rfl
  · exact label_blockBodied _
  · rfl

theorem type_unguard (a : Ast) : (unguard a).type = a.type := congrArg Label.type (label_unguard a)

theorem unguard_hole : unguard hole = hole := unguard_of_type (by decide)

/-- The parts of a node that is not looked into. -/
theorem child_unguard {a : Ast}
    (h : a.type ∉ [.blockStatement, .program, .arrowFunctionExpression]) (field : Field) :
    (unguard a).child field = unguard (a.child field) := by
  obtain ⟨l, ks⟩ := a
  have hnode : unguard (.node l ks) = .node l (mapKids unguard ks) := unguard_of_type h
  rw [hnode, child_mapKids unguard_hole]

theorem isCallOf_unguard (name : String) (a : Ast) :
    isCallOf name (unguard a) = isCallOf name a := by
  by_cases h : a.type = .callExpression
  · have hnot : a.type ∉ [.blockStatement, .program, .arrowFunctionExpression] := by
      rw [h]
      decide
    simp only [isCallOf, type_unguard, child_unguard hnot, label_unguard]
  · simp [isCallOf, type_unguard, h]

theorem isDirective_unguard (a : Ast) : isDirective (unguard a) = isDirective a := by
  by_cases h : a.type = .expressionStatement
  · have hnot : a.type ∉ [.blockStatement, .program, .arrowFunctionExpression] := by
      rw [h]
      decide
    simp only [isDirective, type_unguard, child_unguard hnot, label_unguard]
  · simp [isDirective, type_unguard, h]

theorem isDepthEnter_unguard (a : Ast) : isDepthEnter (unguard a) = isDepthEnter a := by
  have hchild : ∀ {b : Ast} {t : NodeType}, b.type = t →
      t ∉ [.blockStatement, .program, .arrowFunctionExpression] → ∀ field,
      (unguard b).child field = unguard (b.child field) :=
    fun hb ht field => child_unguard (by rw [hb]; exact ht) field
  by_cases h : a.type = .expressionStatement
  · simp [isDepthEnter, type_unguard, h, hchild h (by decide), isCallOf_unguard]
  · by_cases h' : a.type = .variableDeclaration
    · by_cases hd : (a.child .declarations).type = .variableDeclarator
      · simp [isDepthEnter, type_unguard, h', hchild h' (by decide), hd, hchild hd (by decide),
          isCallOf_unguard]
      · simp [isDepthEnter, type_unguard, h', hchild h' (by decide), hd]
    · simp [isDepthEnter, type_unguard, h, h']

theorem isDepthExit_unguard (a : Ast) : isDepthExit (unguard a) = isDepthExit a := by
  by_cases h : a.type = .expressionStatement
  · have hnot : a.type ∉ [.blockStatement, .program, .arrowFunctionExpression] := by
      rw [h]
      decide
    simp only [isDepthExit, type_unguard, child_unguard hnot, isCallOf_unguard]
  · simp [isDepthExit, type_unguard, h]

/-- A body that enters no depth is no guarded body. -/
theorem unguardBody_eq_self {a : Ast} (h : ∀ k ∈ a.kids, isDepthEnter k.2 = false) :
    unguardBody a = a := by
  rw [unguardBody]
  split
  next place enter _ _ hks =>
    have hmem : (place, enter) ∈ a.kids := by
      refine List.dropWhile_subset (fun k => isDirective k.2) ?_
      rw [hks]
      exact List.mem_cons_self
    rw [if_neg (by simpa using h _ hmem)]
  next => rfl

/-- A guarded body: directives, the statement that enters, and a `try` around the rest. -/
theorem wrapDepthGuard_eq (armed : Option (ℕ × ArmedNames)) : ∃ enter handler finalizer,
    isDepthEnter enter = true ∧ isDirective enter = false ∧
    ∀ l ks, wrapDepthGuard armed (.node l ks) = .node l (ks.takeWhile (fun k => isDirective k.2) ++
      [(.body, enter), (.body, tryStatement
        (.node { type := .blockStatement } (ks.dropWhile fun k => isDirective k.2))
        handler finalizer)]) := by
  cases armed with
  | none => exact ⟨_, _, _, rfl, rfl, fun _ _ => rfl⟩
  | some pair => exact ⟨_, _, _, rfl, rfl, fun _ _ => rfl⟩

theorem unguardBody_guarded {dirs : List (Field × Ast)} {enter t : Ast}
    (hdirs : ∀ k ∈ dirs, isDirective k.2 = true) (henter : isDepthEnter enter = true)
    (hdir : isDirective enter = false) :
    unguardBody (.node l (dirs ++ [(.body, enter), (.body, t)])) =
      .node l (dirs ++ (child t .block).kids) := by
  have hdrop : (dirs ++ [(Field.body, enter), (.body, t)]).dropWhile (fun k => isDirective k.2) =
      [(Field.body, enter), (.body, t)] := by
    rw [List.dropWhile_append_of_pos hdirs, List.dropWhile_cons_of_neg (by simp [hdir])]
  have htake : (dirs ++ [(Field.body, enter), (.body, t)]).takeWhile (fun k => isDirective k.2) =
      dirs := by
    rw [List.takeWhile_append_of_pos hdirs, List.takeWhile_cons_of_neg (by simp [hdir]),
      List.append_nil]
  rw [unguardBody]
  simp only [kids_node, hdrop, htake, henter, if_true, label_node]

theorem unguard_block (hl : l.type = .blockStatement) :
    unguard (.node l ks) = unguardBody (.node l (mapKids unguard ks)) := by
  rw [unguard_node, unguardNode]
  simp only [type_node, hl]

theorem unguard_plainBlock (hl : l.type = .blockStatement)
    (h : ∀ k ∈ ks, isDepthEnter (unguard k.2) = false) :
    unguard (.node l ks) = .node l (mapKids unguard ks) := by
  rw [unguard_block hl]
  refine unguardBody_eq_self fun k hk => ?_
  obtain ⟨j, hj, rfl⟩ := mem_mapKids.1 hk
  exact h j hj

/-- **A guard is taken out of a body that has none of its own.** -/
theorem unguard_wrapDepthGuard {guard : Option (ℕ × ArmedNames)} (hl : l.type = .blockStatement)
    (h : ∀ k ∈ ks, isDepthEnter (unguard k.2) = false) :
    unguard (wrapDepthGuard guard (.node l ks)) = .node l (mapKids unguard ks) := by
  obtain ⟨enter, handler, finalizer, henter, hdir, heq⟩ := wrapDepthGuard_eq guard
  have hdirs : ∀ k ∈ mapKids unguard (ks.takeWhile fun k => isDirective k.2),
      isDirective k.2 = true := by
    intro k hk
    obtain ⟨j, hj, rfl⟩ := mem_mapKids.1 hk
    rw [isDirective_unguard]
    exact List.mem_takeWhile_imp (p := fun k : Field × Ast => isDirective k.2) hj
  have hrest := unguard_plainBlock (l := { type := .blockStatement }) rfl fun k hk =>
    h k (List.dropWhile_subset (fun k => isDirective k.2) hk)
  rw [heq, unguard_block hl, mapKids_append, mapKids_cons, mapKids_cons, mapKids_nil,
    unguardBody_guarded hdirs (by rw [isDepthEnter_unguard, henter])
      (by rw [isDirective_unguard, hdir]),
    child_unguard (by simp [tryStatement])]
  change Rose.node l (_ ++ kids (unguard (.node { type := .blockStatement } _))) = _
  rw [hrest, kids_node, ← mapKids_append, List.takeWhile_append_dropWhile]

/-- **The guard of a source is taken out of it.** -/
theorem unguard_chargeTopLevelFrame (names : ArmedNames) {a : Ast} (ha : a.type = .program) :
    unguard (chargeTopLevelFrame names a) = unguard a := by
  obtain ⟨l, ks⟩ := a
  have hl : l.type = .program := ha
  have hprogram : ∀ ks : List (Field × Ast), unguard (.node l ks) = .node l
      ((mapKids unguard ks).filter fun k => !(isDepthEnter k.2 || isDepthExit k.2)) := by
    intro ks
    rw [unguard_node, unguardNode]
    simp only [type_node, hl, label_node, kids_node]
  have henter : isDepthEnter (unguard (depthEnter (frameWeight (.node l ks)) names.token)) = true :=
    (isDepthEnter_unguard _).trans rfl
  have hexit : isDepthExit (unguard (depthExit [astIdent names.token, astLiteral (.num 0)])) =
      true :=
    (isDepthExit_unguard _).trans rfl
  rw [chargeTopLevelFrame, hprogram]
  simp only [label_node, kids_node]
  rw [hprogram]
  conv_rhs => rw [← List.take_append_drop (directivePrologueLength ks + 1) ks]
  simp only [mapKids_append, mapKids_cons, mapKids_nil, List.filter_append]
  rw [List.filter_cons_of_neg (by simp [henter]), List.filter_cons_of_neg (by simp [hexit]),
    List.filter_nil, List.append_nil]

/-! ### Guards of functions -/

/-- A node that neither enters nor leaves a depth. -/
def NoDepth (a : Ast) : Prop := ∀ name ∈ DEPTH_HELPERS, isCallOf name a = false

theorem noDepth_of_type {a : Ast} (h : a.type ≠ .callExpression) : NoDepth a :=
  fun name _ => by simp [isCallOf, h]

theorem noDepth_hole : NoDepth hole := noDepth_of_type (by decide)

theorem isDepthEnter_of_noDepth {a : Ast} (h : All NoDepth a) : isDepthEnter a = false := by
  have hexpr := (all_child h noDepth_hole .expression).self "__depth_enter" (by decide)
  have hinit := (all_child (all_child h noDepth_hole .declarations) noDepth_hole .init).self
    "__depth_enter" (by decide)
  simp [isDepthEnter, hexpr, hinit]

theorem isDepthExit_of_noDepth {a : Ast} (h : All NoDepth a) : isDepthExit a = false := by
  have hexpr := (all_child h noDepth_hole .expression).self "__depth_exit" (by decide)
  simp [isDepthExit, hexpr]

theorem injectDepthGuards_node : injectDepthGuards armed (.node l ks) =
    guardDepth armed (.node l (mapKids (injectDepthGuards armed) ks)) := rewrite_node _ l ks

theorem guardDepth_of_type {a : Ast} (h : a.type.isFunction = false) : guardDepth armed a = a := by
  simp [guardDepth, h]

theorem label_guardDepth (a : Ast) : (guardDepth armed a).label = a.label := by
  rw [guardDepth]
  split_ifs
  · rw [label_update, label_blockBodied]
  · rfl

/-- The body of a function, with its parts guarded. -/
theorem unguard_guardedBody {guard : Option (ℕ × ArmedNames)} {b : Ast}
    (hfree : All NoDepth b)
    (habs : All (fun s => unguard (injectDepthGuards armed s) = unguard s) b)
    (hb : b.type = .blockStatement) :
    unguard (wrapDepthGuard guard (injectDepthGuards armed b)) =
      unguard (injectDepthGuards armed b) := by
  obtain ⟨l, ks⟩ := b
  rw [type_node] at hb
  have hkept : injectDepthGuards armed (.node l ks) =
      .node l (mapKids (injectDepthGuards armed) ks) := by
    rw [injectDepthGuards_node, guardDepth_of_type (by simp [hb, NodeType.isFunction])]
  have henter : ∀ k ∈ mapKids (injectDepthGuards armed) ks,
      isDepthEnter (unguard k.2) = false := by
    intro k hk
    obtain ⟨j, hj, rfl⟩ := mem_mapKids.1 hk
    have hpart : unguard (injectDepthGuards armed j.2) = unguard j.2 := (habs.kid hj).self
    dsimp only
    rw [hpart, isDepthEnter_unguard]
    exact isDepthEnter_of_noDepth (hfree.kid hj)
  rw [hkept, unguard_wrapDepthGuard hb henter, unguard_plainBlock hb henter]

theorem guardDepth_eq (armed : Option ArmedNames) {a : Ast} (h : a.type.isFunction = true) :
    ∃ guard, guardDepth armed a = (blockBodied a).update .body fun b =>
      if isBlock b then wrapDepthGuard guard b else b :=
  ⟨_, if_pos h⟩

theorem blockBodied_of_ne {a : Ast} (h : a.type ≠ .arrowFunctionExpression) : blockBodied a = a :=
  if_neg h

theorem blockBodied_of_arrow {a : Ast} (h : a.type = .arrowFunctionExpression) :
    blockBodied a = a.update .body fun b => if isBlock b then b else returnBlock b := if_pos h

/-- The block of a `return` is a block without a guard. -/
theorem returnBlock_eq (e : Ast) : ∃ ks, returnBlock e = .node { type := .blockStatement } ks ∧
    returnBlock (unguard e) = .node { type := .blockStatement } (mapKids unguard ks) ∧
    ∀ k ∈ ks, isDepthEnter (unguard k.2) = false := by
  refine ⟨[(.body, .node { type := .returnStatement } [(.argument, e)])], rfl, ?_, fun k hk => ?_⟩
  · rw [mapKids_cons, mapKids_nil, unguard_of_type (by simp)]
    rfl
  · rw [List.mem_singleton.1 hk, isDepthEnter_unguard]
    rfl

/-- A function whose body is changed. -/
theorem unguard_update_body {f : Ast → Ast} (hl : l.type.isFunction = true)
    (harrow : l.type ≠ .arrowFunctionExpression)
    (h : ∀ b, (.body, b) ∈ ks → unguard (f b) = unguard b) :
    unguard (update (.node l ks) .body f) = unguard (.node l ks) := by
  have hnot : l.type ∉ [.blockStatement, .program, .arrowFunctionExpression] := by
    intro hmem
    simp only [List.mem_cons, List.not_mem_nil, or_false] at hmem
    rcases hmem with ht | ht | ht
    · simp [ht, NodeType.isFunction] at hl
    · simp [ht, NodeType.isFunction] at hl
    · exact harrow ht
  rw [update_node, unguard_of_type hnot, unguard_of_type hnot, mapKids_updateKids h]

/-- **The guards of functions are taken out again.** -/
theorem unguard_injectDepthGuards {a : Ast} (h : All NoDepth a) :
    unguard (injectDepthGuards armed a) = unguard a := by
  refine (rewrite_absorbs a fun l ks ho hkids => ?_).self
  change unguard (guardDepth armed (.node l (mapKids (injectDepthGuards armed) ks))) =
    unguard (.node l (mapKids (injectDepthGuards armed) ks))
  have hpart : ∀ {field : Field} {b : Ast}, (field, b) ∈ mapKids (injectDepthGuards armed) ks →
      ∃ c, All NoDepth c ∧ All (fun s => unguard (injectDepthGuards armed s) = unguard s) c ∧
        injectDepthGuards armed c = b := by
    intro field b hb
    obtain ⟨⟨place, c⟩, hc, heq⟩ := mem_mapKids.1 hb
    obtain ⟨rfl, rfl⟩ := Prod.mk.inj heq
    exact ⟨c, fun s hs => h s ((Occurs.kid hc hs).trans ho), hkids _ hc, rfl⟩
  have hwrap : ∀ (guard : Option (ℕ × ArmedNames)) (b : Ast),
      (.body, b) ∈ mapKids (injectDepthGuards armed) ks → isBlock b = true →
      unguard (wrapDepthGuard guard b) = unguard b := by
    intro guard b hb hblock
    obtain ⟨c, hfree, habs, rfl⟩ := hpart hb
    obtain ⟨lc, kc⟩ := c
    refine unguard_guardedBody hfree habs ?_
    have htype := of_decide_eq_true hblock
    rwa [Ast.type, injectDepthGuards_node, label_guardDepth] at htype
  by_cases hfn : l.type.isFunction = true
  · obtain ⟨guard, heq⟩ := guardDepth_eq armed
      (a := .node l (mapKids (injectDepthGuards armed) ks)) hfn
    rw [heq]
    by_cases harrow : l.type = .arrowFunctionExpression
    · -- the body of an arrow is a block before it is guarded
      have hbodied : ∀ ks : List (Field × Ast), blockBodied (.node l ks) =
          .node l (updateKids .body (fun b => if isBlock b then b else returnBlock b) ks) :=
        fun _ => if_pos harrow
      have hunguard : ∀ ks : List (Field × Ast), unguard (.node l ks) = .node l (updateKids .body
          (fun b => if isBlock b then b else returnBlock b) (mapKids unguard ks)) := by
        intro ks
        rw [unguard_node, unguardNode, ← hbodied]
        simp only [type_node, harrow]
      rw [hbodied, update_node, updateKids_updateKids, hunguard, hunguard]
      refine congrArg _ (updateKids_absorbs fun b hb => ?_)
      have hkeep : isBlock (unguard b) = isBlock b := by rw [isBlock, type_unguard, ← isBlock]
      by_cases hblock : isBlock b = true
      · simp only [hblock, if_true, hwrap _ b hb hblock]
      · have hreturn : ∀ e, isBlock (returnBlock e) = true := fun _ => rfl
        have hwrapped : unguard (wrapDepthGuard guard (returnBlock b)) =
            returnBlock (unguard b) := by
          obtain ⟨kb, hb, hub, henter⟩ := returnBlock_eq b
          rw [hb, hub, unguard_wrapDepthGuard rfl henter]
        simp only [hblock, Bool.false_eq_true, if_false, hreturn, if_true, hkeep, hwrapped]
    · rw [blockBodied_of_ne (a := .node l (mapKids (injectDepthGuards armed) ks)) harrow]
      refine unguard_update_body hfn harrow fun b hb => ?_
      split_ifs with hblock
      · exact hwrap _ b hb hblock
      · rfl
  · rw [guardDepth_of_type (by simpa using hfn)]

/-! ### Charges and guards -/

theorem eraseCharges_returnBlock (e : Ast) :
    eraseCharges armed (returnBlock e) = returnBlock (eraseCharges armed e) := by
  have hreturn : eraseCharges armed (.node { type := .returnStatement } [(.argument, e)]) =
      .node { type := .returnStatement } [(.argument, eraseCharges armed e)] := by
    rw [eraseCharges_node]
    rfl
  rw [returnBlock, blockStatement, listNode, eraseCharges_node]
  simp only [List.map_cons, List.map_nil, mapKids_cons, mapKids_nil, hreturn]
  simp [eraseCharge, dropCharges, isGasStatement, disarm, returnBlock, blockStatement, listNode]

/-- **Without a guard there is nothing to take out but the blocks of arrows.** -/
theorem eraseCharges_unguard {a : Ast} (h : All NoDepth a) :
    eraseCharges armed (unguard a) = eraseCharges armed a := by
  refine (rewrite_absorbs a fun l ks ho _ => ?_).self
  change eraseCharges armed (unguardNode (.node l (mapKids unguard ks))) =
    eraseCharges armed (.node l (mapKids unguard ks))
  have hfree : ∀ k ∈ ks, All NoDepth k.2 := fun k hk s hs => h s ((Occurs.kid hk hs).trans ho)
  have henter : ∀ k ∈ mapKids unguard ks, isDepthEnter k.2 = false := by
    intro k hk
    obtain ⟨j, hj, rfl⟩ := mem_mapKids.1 hk
    exact (isDepthEnter_unguard _).trans (isDepthEnter_of_noDepth (hfree j hj))
  have hexit : ∀ k ∈ mapKids unguard ks, isDepthExit k.2 = false := by
    intro k hk
    obtain ⟨j, hj, rfl⟩ := mem_mapKids.1 hk
    exact (isDepthExit_unguard _).trans (isDepthExit_of_noDepth (hfree j hj))
  rw [unguardNode]
  split
  · rw [unguardBody_eq_self (a := .node l (mapKids unguard ks)) henter]
  · rw [kids_node, label_node, List.filter_eq_self.2 fun k hk => by simp [henter k hk, hexit k hk]]
  · rename_i htype
    have herase : ∀ ks', eraseCharge armed (.node l ks') = .node l (updateKids .body
        (fun b => if isBlock b then b else returnBlock b) ks') := by
      intro ks'
      rw [type_node] at htype
      simp only [eraseCharge, blockForm, type_node, htype, blockBodied, if_true]
      rfl
    rw [blockBodied, if_pos htype, update_node, eraseCharges_node, eraseCharges_node, herase,
      herase]
    refine congrArg _ (updateKids_absorbs fun b _ => ?_)
    by_cases hblock : isBlock b = true
    · simp only [hblock, if_true]
    · have hnot : isBlock (eraseCharges armed b) = false :=
        decide_eq_false (eraseCharges_ne rfl fun heq => hblock (decide_eq_true heq))
      have hreturn : ∀ e, isBlock (returnBlock e) = true := fun _ => rfl
      simp only [hblock, Bool.false_eq_true, if_false, eraseCharges_returnBlock, hreturn, if_true,
        hnot]
  · rfl

theorem neutral_noDepth : Neutral NoDepth where
  added a ha := noDepth_of_type fun ht => by simp [ht, NodeType.added] at ha
  gas args name hname := by
    simp only [DEPTH_HELPERS, List.mem_cons, List.not_mem_nil, or_false] at hname
    rcases hname with rfl | rfl <;> rfl

/-- A pass that keeps names keeps what is called. -/
theorem NoDepth.mapKids {f : Ast → Ast} (hhole : f hole = hole)
    (hf : ∀ (name : String) (b : Ast), isNamed name (f b) = isNamed name b)
    (h : NoDepth (.node l ks)) : NoDepth (.node l (mapKids f ks)) := by
  intro name hname
  rw [isCallOf_eq, child_mapKids hhole, hf, type_node]
  exact (isCallOf_eq name (.node l ks)).symm.trans (h name hname)

theorem isNamed_of_label {f : Ast → Ast} {b : Ast} (h : (f b).label = b.label) (name : String) :
    isNamed name (f b) = isNamed name b := by
  rw [isNamed, isNamed, Ast.type, Ast.type, h]

theorem label_chargeEntry {a : Ast} (h : a.type ≠ .tryStatement) :
    (chargeEntry armed a).label = a.label := by
  unfold chargeEntry
  split
  case h_10 =>
    split_ifs
    · rfl
    · rfl
  all_goals first | rfl | contradiction

theorem isNamed_injectBlockGas (name : String) (b : Ast) :
    isNamed name (injectBlockGas armed b) = isNamed name b := by
  obtain ⟨l, ks⟩ := b
  by_cases htry : l.type = .tryStatement
  · have hnot : (injectBlockGas armed (.node l ks)).type ≠ .identifier := by
      intro heq
      have hmem := type_chargeEntry_try armed
        (a := .node l (mapKids (injectBlockGas armed) ks)) htry
      rw [← injectBlockGas_node, heq] at hmem
      simp at hmem
    simp [isNamed, hnot, htry]
  · refine isNamed_of_label ?_ name
    rw [injectBlockGas_node]
    exact label_chargeEntry (a := .node l (mapKids (injectBlockGas armed) ks)) htry

theorem isNamed_chargeCalls (place : Place) (name : String) (b : Ast) :
    isNamed name (chargeCalls place b) = isNamed name b := by
  obtain ⟨l, ks⟩ := b
  rw [chargeCalls_node, chargeCall]
  split_ifs with hcall
  · rw [Bool.and_eq_true] at hcall
    have htype : l.type = .callExpression := type_of_isCharged hcall.1
    simp [isNamed, htype, wrapWithGas]
  · rfl

theorem chargeCalls_hole (place : Place) : chargeCalls place hole = hole := by
  rw [hole, chargeCalls_node]
  rfl

/-- The charges neither enter nor leave a depth. -/
theorem all_noDepth_charged {a : Ast} (ha : a.type = .program) (h : All NoDepth a) :
    All NoDepth (injectCallGas (injectBinaryDepthGas
      (injectBlockGas armed (insertGasAfterDirectives a)))) := by
  have hentry : All NoDepth (injectBlockGas armed (insertGasAfterDirectives a)) :=
    all_injectBlockGas neutral_noDepth
      (fun b hb => noDepth_of_type fun ht => by simp [ht] at hb)
      (fun l ks hn => hn.mapKids rfl isNamed_injectBlockGas)
      (all_insertGas neutral_noDepth (by rw [ha]; decide) h)
  have hchain : All NoDepth (injectBinaryDepthGas
      (injectBlockGas armed (insertGasAfterDirectives a))) := by
    refine all_rewrite _ fun l ks ho hkids => all_chargeChain neutral_noDepth
      (fun b f hb _ _ => noDepth_of_type (by simp [hb])) (all_node.2 ⟨?_, all_mapKids hkids⟩)
    exact (hentry _ ho).mapKids rfl fun name b =>
      isNamed_of_label (label_injectBinaryDepthGas b) name
  generalize injectBinaryDepthGas (injectBlockGas armed (insertGasAfterDirectives a)) = b at hchain
  obtain ⟨l, ks⟩ := b
  have hcall : ∀ {c : Ast} (place : Place), All NoDepth c → All NoDepth (chargeCalls place c) := by
    intro c place hc
    refine all_rewriteFrom c (fun place l ks ho hkids => ?_) place
    have hnode : All NoDepth (.node l (mapKids (chargeCalls (place.2, l.type)) ks)) :=
      all_node.2 ⟨(hc _ ho).mapKids (chargeCalls_hole _) (isNamed_chargeCalls _),
        all_mapKids hkids⟩
    change All NoDepth (chargeCall place (.node l (mapKids (chargeCalls (place.2, l.type)) ks)))
    rw [chargeCall]
    split_ifs
    · exact all_wrapWithGas neutral_noDepth hnode
    · exact hnode
  exact all_node.2 ⟨hchain.self.mapKids (chargeCalls_hole _) (isNamed_chargeCalls _),
    all_mapKids fun k hk => hcall _ (hchain.kid hk)⟩

theorem eraseCharges_injectBlockGas_insertGas {a : Ast} (ha : a.type = .program)
    (hfree : All (Free armed) a) (hgram : All Grammatical a) :
    eraseCharges armed (injectBlockGas armed (insertGasAfterDirectives a)) =
      eraseCharges armed (insertGasAfterDirectives a) := by
  obtain ⟨l, ks⟩ := a
  rw [type_node] at ha
  rw [insertGasAfterDirectives, injectBlockGas_node]
  have hprogram : ∀ ks : List (Field × Ast), chargeEntry armed (.node l ks) = .node l ks := by
    intro ks
    simp only [chargeEntry, type_node, ha]
  have hpart : ∀ k ∈ ks, eraseCharges armed (injectBlockGas armed k.2) = eraseCharges armed k.2 :=
    fun k hk => (eraseCharges_injectBlockGas (hfree.kid hk) (hgram.kid hk)).self
  rw [hprogram, eraseCharges_node, eraseCharges_node, mapKids_mapKids]
  refine congrArg _ (congrArg _ (mapKids_congr fun k hk => ?_))
  rcases List.mem_append.1 hk with hk | hk
  · exact hpart k (List.takeWhile_subset _ hk)
  · rcases List.mem_cons.1 hk with rfl | hk
    · rfl
    · exact hpart k (List.dropWhile_subset _ hk)

/-- **All that the passes add is taken out again.** -/
theorem eraseCharges_injectCharges {a : Ast} (ha : a.type = .program) (hfree : All (Free armed) a)
    (hgram : All Grammatical a) (hdepth : All NoDepth a) :
    eraseCharges armed (unguard (injectCharges armed a)) = normalise armed a := by
  have hnone : All NoDepth (injectCallGas (injectBinaryDepthGas
      (injectBlockGas armed (insertGasAfterDirectives a)))) := all_noDepth_charged ha hdepth
  have hchained : All Chained (injectBlockGas armed (insertGasAfterDirectives a)) :=
    all_injectBlockGas neutral_chained (fun b => chained_of_type)
      (fun l ks h => h.mapKids keepsTypes_injectBlockGas)
      (all_insertGas neutral_chained (by rw [ha]; decide) (hgram.mono fun b hb => hb.chains))
  rw [injectCharges, unguard_injectDepthGuards hnone, eraseCharges_unguard hnone,
    eraseCharges_injectCallGas, eraseCharges_injectBinaryDepthGas hchained,
    eraseCharges_injectBlockGas_insertGas ha hfree hgram, eraseCharges_insertGas (.inr ha),
    eraseCharges_eq_normalise hfree]

theorem type_injectCharges {a : Ast} (ha : a.type = .program) :
    (injectCharges armed a).type = .program := by
  have hguard : ∀ b : Ast, (injectDepthGuards armed b).type = b.type := by
    rintro ⟨l, ks⟩
    rw [injectDepthGuards_node]
    exact congrArg Label.type (label_guardDepth (.node l _))
  have hcall : ∀ b : Ast, (injectCallGas b).type = b.type := by
    rintro ⟨l, ks⟩
    rfl
  have hentry : (insertGasAfterDirectives a).type = .program := (type_insertGas a).trans ha
  rw [injectCharges, hguard, hcall, Ast.type, label_injectBinaryDepthGas, ← Ast.type,
    type_injectBlockGas (by rw [hentry]; decide), hentry]

end XChainSdk
