import XChainSdk.Contract.MeteringErasure

/-!
# Taking metering out again

Each pass that charges is absorbed by `eraseCharges`.

* `eraseCharges_injectBlockGas` : the entry charges.
* `eraseCharges_injectBinaryDepthGas`, `eraseCharges_injectCallGas` : the charges in expressions.
* `Neutral` : what a property needs for the charges to keep it.
-/

namespace XChainSdk

open Rose Ast

variable {armed : Option ArmedNames} {l : Label} {ks : List (Field × Ast)}

/-! ### Entry charges -/

/-- A branch of a node whose branches are charged. -/
theorem mem_mapKids_injectBlockGas {field : Field} {b : Ast}
    (h : (field, b) ∈ mapKids (injectBlockGas armed) ks) :
    ∃ c, (field, c) ∈ ks ∧ injectBlockGas armed c = b := by
  obtain ⟨⟨place, c⟩, hc, heq⟩ := mem_mapKids.1 h
  obtain ⟨rfl, rfl⟩ := Prod.mk.inj heq
  exact ⟨c, hc, rfl⟩

theorem isForm_of_isOperand {b : Ast} (h : b.type.isOperand = true) : b.type.isForm = false := by
  rw [NodeType.isOperand, Bool.and_eq_true, Bool.not_eq_true'] at h
  exact h.1

/-- What is changed in a field goes, where what is left cannot tell. -/
theorem updateKids_absorbs {field : Field} {e g h : Ast → Ast}
    (hab : ∀ b, (field, b) ∈ ks → h (e (g b)) = h (e b)) :
    updateKids field h (mapKids e (updateKids field g ks)) = updateKids field h (mapKids e ks) := by
  simp only [updateKids, mapKids, List.map_map]
  refine List.map_congr_left fun k hk => ?_
  obtain ⟨place, b⟩ := k
  by_cases hf : place = field
  · subst hf
    simp [hab b hk]
  · simp [hf]

theorem updateKids_comm {field field' : Field} (hne : field ≠ field') (f g : Ast → Ast) :
    updateKids field' g (updateKids field f ks) = updateKids field f (updateKids field' g ks) := by
  simp only [updateKids, List.map_map]
  refine List.map_congr_left fun k _ => ?_
  by_cases hf : k.1 = field
  · simp [hf, hne]
  · by_cases hf' : k.1 = field' <;> simp [hf, hf', hne.symm]

/-- The same of two fields. -/
theorem updateKids_absorbs₂ {field field' : Field} (hne : field ≠ field') {e g g' h h' : Ast → Ast}
    (hab : ∀ b, (field, b) ∈ ks → h (e (g b)) = h (e b))
    (hab' : ∀ b, (field', b) ∈ ks → h' (e (g' b)) = h' (e b)) :
    updateKids field' h' (updateKids field h
        (mapKids e (updateKids field' g' (updateKids field g ks)))) =
      updateKids field' h' (updateKids field h (mapKids e ks)) := by
  have hmem : ∀ b, (field', b) ∈ updateKids field g ks → (field', b) ∈ ks := by
    intro b hb
    rcases mem_updateKids hb with hmem | ⟨c, -, heq⟩
    · exact hmem
    · exact absurd (Prod.mk.inj heq).1.symm hne
  rw [updateKids_comm hne, updateKids_absorbs fun b hb => hab' b (hmem b hb),
    ← updateKids_comm hne, updateKids_absorbs hab]

/-- What is known of the parts of a node when its charges are taken out. -/
structure ChargedKids (armed : Option ArmedNames) (l : Label) (ks : List (Field × Ast)) : Prop where
  free : All (Free armed) (.node l ks)
  grammatical : All Grammatical (.node l ks)
  absorbed : ∀ k ∈ ks, All (fun s => eraseCharges armed (injectBlockGas armed s) =
    eraseCharges armed s) k.2

section ChargedKids

variable (h : ChargedKids armed l ks)

include h

theorem ChargedKids.node_grammatical :
    Grammatical (.node l (mapKids (injectBlockGas armed) ks)) :=
  h.grammatical.self.mapKids keepsTypes_injectBlockGas

/-- A charged part without its charges is the part in block form. -/
theorem ChargedKids.erased {field : Field} {b : Ast}
    (hb : (field, b) ∈ mapKids (injectBlockGas armed) ks) :
    ∃ c, All (Free armed) c ∧ eraseCharges armed b = normalise armed c := by
  obtain ⟨c, hc, rfl⟩ := mem_mapKids_injectBlockGas hb
  have hfree : All (Free armed) c := h.free.kid hc
  exact ⟨c, hfree, (h.absorbed _ hc).self.trans (eraseCharges_eq_normalise hfree)⟩

theorem ChargedKids.notGas {field : Field} {b : Ast}
    (hb : (field, b) ∈ mapKids (injectBlockGas armed) ks) :
    isGasStatement (eraseCharges armed b) = false := by
  obtain ⟨c, hc, heq⟩ := h.erased hb
  rw [heq]
  exact isGasStatement_normalise hc

theorem ChargedKids.body {b : Ast} (hb : (.body, b) ∈ mapKids (injectBlockGas armed) ks) :
    ensureBlock (eraseCharges armed (unshift gasCallStatement (ensureBlock b))) =
      ensureBlock (eraseCharges armed b) :=
  ensureBlock_charged (h.notGas hb)

end ChargedKids

theorem eraseCharges_switchCase {l : Label} (hl : l.type = .switchCase) :
    eraseCharges armed (if (nodes (.node l ks) .consequent).isEmpty then .node l ks
      else .node l (ks.takeWhile (·.1 ≠ .consequent) ++
        (.consequent, gasCallStatement) :: ks.dropWhile (·.1 ≠ .consequent))) =
      eraseCharges armed (.node l ks) := by
  split_ifs
  · rfl
  · have hdrop : dropCharges (mapKids (eraseCharges armed)
        (ks.takeWhile (·.1 ≠ .consequent) ++
          (.consequent, gasCallStatement) :: ks.dropWhile (·.1 ≠ .consequent))) =
        dropCharges (mapKids (eraseCharges armed) ks) := by
      conv_rhs => rw [← List.takeWhile_append_dropWhile (p := (·.1 ≠ .consequent)) (l := ks)]
      rw [mapKids_append, mapKids_append, mapKids_cons, eraseCharges_gasCallStatement, dropCharges,
        dropCharges, List.filter_append, List.filter_append, List.filter_cons_of_neg (by simp)]
    rw [eraseCharges_node, eraseCharges_node]
    simp only [eraseCharge, type_node, hl, label_node, kids_node, hdrop]

theorem eraseCharges_chargeLoop {l : Label}
    (hl : l.type ∈ [.whileStatement, .doWhileStatement, .forInStatement, .forOfStatement])
    (h : ChargedKids armed l ks) :
    eraseCharges armed (chargeLoopBody (.node l (mapKids (injectBlockGas armed) ks))) =
      eraseCharges armed (.node l (mapKids (injectBlockGas armed) ks)) := by
  have herase : ∀ ks', eraseCharge armed (.node l ks') =
      .node l (updateKids .body ensureBlock ks') := by
    intro ks'
    simp only [List.mem_cons, List.not_mem_nil, or_false] at hl
    rcases hl with hl | hl | hl | hl <;> simp only [eraseCharge, blockForm, type_node, hl] <;> rfl
  rw [chargeLoopBody, update_node, eraseCharges_node, eraseCharges_node, herase, herase]
  exact congrArg _ (updateKids_absorbs fun b hb => h.body hb)

theorem eraseCharges_chargeFor {l : Label} (hl : l.type = .forStatement)
    (h : ChargedKids armed l ks) :
    eraseCharges armed ((chargeLoopBody (.node l (mapKids (injectBlockGas armed) ks))).update
        .update fun u => if isHole u then gasCallExpr else wrapWithGas u) =
      eraseCharges armed (.node l (mapKids (injectBlockGas armed) ks)) := by
  have herase : ∀ ks', eraseCharge armed (.node l ks') = .node l (updateKids .update
      (fun u => if isCallOf "__gas" u then hole else u) (updateKids .body ensureBlock ks')) := by
    intro ks'
    simp only [eraseCharge, type_node, hl]
    rfl
  rw [chargeLoopBody, update_node, update_node, eraseCharges_node, eraseCharges_node, herase,
    herase]
  refine congrArg _ (updateKids_absorbs₂ (by decide) (fun b hb => h.body hb) fun b hb => ?_)
  rcases h.node_grammatical.updates hl b hb with rfl | ho
  · -- a loop without an update is charged there all the same
    have hgas : isCallOf "__gas" gasCallExpr = true := by decide
    have hhole : isHole hole = true := rfl
    have hnot : isCallOf "__gas" hole = false := by decide
    simp only [hhole, if_true, eraseCharges_gasCallExpr, hgas, eraseCharges_hole, hnot,
      Bool.false_eq_true, if_false]
  · have hhole : isHole b = false := by
      refine decide_eq_false fun heq => ?_
      rw [heq] at ho
      cases ho
    rw [hhole]
    simp only [Bool.false_eq_true, if_false, eraseCharges_wrapWithGas (isForm_of_isOperand ho)]

theorem eraseCharges_chargeIf {l : Label} (hl : l.type = .ifStatement)
    (h : ChargedKids armed l ks) :
    eraseCharges armed ((update (.node l (mapKids (injectBlockGas armed) ks)) .consequent
        fun b => unshift gasCallStatement (ensureBlock b)).update .alternate fun b =>
          if isHole b || Ast.type b = .ifStatement then b
          else unshift gasCallStatement (ensureBlock b)) =
      eraseCharges armed (.node l (mapKids (injectBlockGas armed) ks)) := by
  have herase : ∀ ks', eraseCharge armed (.node l ks') = .node l (updateKids .alternate
      (fun b => if Ast.type b = .ifStatement then b else ensureBlock b)
        (updateKids .consequent ensureBlock ks')) := by
    intro ks'
    simp only [eraseCharge, blockForm, type_node, hl]
    rfl
  rw [update_node, update_node, eraseCharges_node, eraseCharges_node, herase, herase]
  refine congrArg _ (updateKids_absorbs₂ (by decide)
    (fun b hb => ensureBlock_charged (h.notGas hb)) fun b hb => ?_)
  by_cases hform : (isHole b || Ast.type b = .ifStatement) = true
  · rw [if_pos hform]
  · rw [if_neg hform]
    simp only [Bool.or_eq_true, decide_eq_true_eq, not_or] at hform
    have htype : (unshift gasCallStatement (ensureBlock b)).type ≠ .ifStatement := by
      rw [ensureBlock]
      split_ifs
      · obtain ⟨lb, kb⟩ := b
        rw [unshift]
        split_ifs <;> exact hform.2
      · rintro ⟨⟩
    rw [if_neg (eraseCharges_ne rfl htype), if_neg (eraseCharges_ne rfl hform.2),
      ensureBlock_charged (h.notGas hb)]

/-- The `try` of an armed source. -/
theorem eraseCharges_chargeTry {names : ArmedNames} {l : Label} (hl : l.type = .tryStatement)
    (h : ChargedKids (some names) l ks) :
    eraseCharges (some names) (armTryStatement names
        (.node l (mapKids (injectBlockGas (some names)) ks))) =
      eraseCharges (some names) (.node l (mapKids (injectBlockGas (some names)) ks)) := by
  obtain ⟨block, handler, finalizer, hks, -, hhandler, hfinalizer⟩ := h.grammatical.self.tries hl
  obtain rfl : ks = [(.block, block), (.handler, handler), (.finalizer, finalizer)] := hks
  have hkept : ∀ {b : Ast} {t : NodeType}, b.type = t → t ≠ .tryStatement →
      (injectBlockGas (some names) b).type = t := fun ht hne =>
    (type_injectBlockGas (by rw [ht]; exact hne)).trans ht
  refine eraseCharges_armTryStatement hl ?_ ?_ ?_
  · exact hhandler.imp (by rintro rfl; rfl) fun hc => hkept hc (by decide)
  · exact hfinalizer.imp (by rintro rfl; rfl) fun hb => hkept hb (by decide)
  · rcases hhandler with rfl | hc
    · rfl
    · have hmem : (Field.handler, handler) ∈
          [(Field.block, block), (.handler, handler), (.finalizer, finalizer)] := by simp
      have hgram := h.grammatical.kid hmem
      have hfree := h.free.kid hmem
      have habs := h.absorbed _ hmem
      obtain ⟨lh, kh⟩ := handler
      obtain ⟨param, body, hkh, hparam, hbody⟩ := hgram.self.catches hc
      obtain rfl : kh = [(.param, param), (.body, body)] := hkh
      have hin : ∀ {k : Field × Ast}, k ∈ [(Field.param, param), (.body, body)] →
          eraseCharges (some names) (injectBlockGas (some names) k.2) =
            normalise (some names) k.2 := fun hk =>
        (habs.kid hk).self.trans (eraseCharges_eq_normalise (hfree.kid hk))
      have hrec : injectBlockGas (some names) (.node lh [(.param, param), (.body, body)]) =
          .node lh [(.param, injectBlockGas (some names) param),
            (.body, injectBlockGas (some names) body)] := by
        rw [injectBlockGas_node, chargeEntry]
        simp only [type_node, show lh.type = .catchClause from hc]
        rfl
      have hparam' := hin (k := (.param, param)) (by simp)
      have hbody' := hin (k := (.body, body)) (by simp)
      dsimp only at hparam' hbody' ⊢
      rw [hrec]
      refine eraseCharges_armHandler hc ?_ (hkept hbody (by decide)) ?_ ?_ ?_
      · rcases hparam with rfl | hp
        · exact .inl rfl
        · refine .inr ?_
          rw [hkept rfl]
          · exact hp
          · intro heq
            rw [heq] at hp
            simp at hp
      · rw [hbody', type_normalise]
        exact hbody
      · rw [hbody']
        exact all_free_normalise (hfree.kid (k := (.body, body)) (by simp))
      · rw [hparam', isNamed_normalise]
        have hnamed := hfree.self.param names rfl hc
        simpa [child, nodes] using hnamed

/-- **The entry charges are taken out again.** -/
theorem eraseCharges_injectBlockGas {a : Ast} (hfree : All (Free armed) a)
    (hgram : All Grammatical a) :
    All (fun s => eraseCharges armed (injectBlockGas armed s) = eraseCharges armed s) a := by
  refine rewrite_absorbs a fun l ks ho hkids => ?_
  have h : ChargedKids armed l ks :=
    ⟨fun s hs => hfree s (hs.trans ho), fun s hs => hgram s (hs.trans ho), hkids⟩
  change eraseCharges armed (chargeEntry armed (.node l (mapKids (injectBlockGas armed) ks))) =
    eraseCharges armed (.node l (mapKids (injectBlockGas armed) ks))
  have hfn : ∀ b : Ast, eraseCharges armed
      (if isBlock b then insertGasAfterDirectives b else b) = eraseCharges armed b := by
    intro b
    split_ifs with hb
    · exact eraseCharges_insertGas (.inl (of_decide_eq_true hb))
    · rfl
  have hunshift : ∀ b : Ast, eraseCharges armed (unshift gasCallStatement b) =
      eraseCharges armed b :=
    eraseCharges_unshift eraseCharges_gasCallStatement isGasStatement_gasCallStatement
  unfold chargeEntry
  split
  · exact eraseCharges_update fun b _ => hfn b
  · exact eraseCharges_update fun b _ => hfn b
  · rename_i htype
    refine eraseCharges_update fun b hb => ?_
    split_ifs with hblock
    · exact eraseCharges_insertGas (.inl (of_decide_eq_true hblock))
    · have hoperand := (h.node_grammatical.arrows htype b hb).resolve_left fun heq =>
        hblock (decide_eq_true heq)
      exact eraseCharges_wrapWithGas (isForm_of_isOperand hoperand)
  · rename_i htype
    exact eraseCharges_chargeFor htype h
  iterate 4
    rename_i htype
    exact eraseCharges_chargeLoop (by rw [type_node] at htype; simp [htype]) h
  · rename_i htype
    exact eraseCharges_chargeIf htype h
  · rename_i htype
    exact eraseCharges_switchCase htype
  · rename_i htype
    cases armed with
    | some names => exact eraseCharges_chargeTry htype h
    | none =>
      dsimp only
      have hhandler : ∀ b : Ast, eraseCharges none (chargeHandler b) = eraseCharges none b := by
        intro b
        rw [chargeHandler]
        split_ifs
        · exact eraseCharges_update fun c _ => hunshift c
        · rfl
      rw [eraseCharges_update fun b _ => hunshift b, eraseCharges_update fun b _ => hhandler b,
        eraseCharges_update fun b _ => hunshift b]
  · rename_i htype
    exact eraseCharges_update fun b hb =>
      eraseCharges_wrapWithGas (isForm_of_isOperand (h.node_grammatical.tests htype b hb))
  · rfl

/-! ### What the charges keep -/

/-- The types of the nodes that the charges add around others. -/
def NodeType.added : List NodeType :=
  [.hole, .program, .identifier, .literal, .expressionStatement, .sequenceExpression,
    .blockStatement, .tryStatement, .catchClause, .variableDeclaration, .variableDeclarator,
    .assignmentExpression, .throwStatement]

/-- A property that does not speak about what the charges add. -/
structure Neutral (P : Ast → Prop) : Prop where
  added : ∀ a : Ast, a.type ∈ NodeType.added → P a
  gas : ∀ args, P (astCall "__gas" args)

section Neutral

variable {P : Ast → Prop} (hP : Neutral P)

include hP

theorem all_leaf {l : Label} (hl : l.type ∈ NodeType.added) :
    All P (.node l []) := all_node.2 ⟨hP.added _ hl, List.forall_mem_nil _⟩

theorem all_ident (name : String) : All P (astIdent name) :=
  all_leaf hP (by simp [NodeType.added])

theorem all_hole : All P hole := all_leaf hP (by decide)

theorem all_gasCall {args : List Ast} (h : ∀ b ∈ args, All P b) : All P (astCall "__gas" args) := by
  refine all_node.2 ⟨hP.gas args, fun k hk => ?_⟩
  rcases List.mem_cons.1 hk with rfl | hk
  · exact all_leaf hP (by simp [NodeType.added])
  · obtain ⟨b, hb, rfl⟩ := List.mem_map.1 hk
    exact h b hb

theorem all_gasCallExpr : All P gasCallExpr :=
  all_gasCall hP fun b hb => by
    rw [List.mem_singleton.1 hb]
    exact all_leaf hP (by simp [NodeType.added])

theorem all_expressionStatement {e : Ast} (h : All P e) : All P (expressionStatement e) := by
  refine all_node.2 ⟨hP.added _ (by simp [NodeType.added]), fun k hk => ?_⟩
  rw [List.mem_singleton.1 hk]
  exact h

theorem all_gasCallStatement : All P gasCallStatement :=
  all_expressionStatement hP (all_gasCallExpr hP)

theorem all_gasCheckStatement (name : String) : All P (gasCheckStatement name) := by
  refine all_expressionStatement hP (all_gasCall hP fun b hb => ?_)
  simp only [List.mem_cons, List.not_mem_nil, or_false] at hb
  rcases hb with rfl | rfl <;> exact all_leaf hP (by simp [NodeType.added])

theorem all_wrapWithGas {b : Ast} (h : All P b) : All P (wrapWithGas b) := by
  refine all_listNode (hP.added _ (by simp [NodeType.added])) fun c hc => ?_
  simp only [List.mem_cons, List.not_mem_nil, or_false] at hc
  rcases hc with rfl | rfl
  · exact all_gasCallExpr hP
  · exact h

theorem all_unshift {stmt b : Ast} (hstmt : All P stmt) (h : All P b) :
    All P (unshift stmt b) := by
  obtain ⟨l, ks⟩ := b
  rw [unshift]
  split_ifs with hl
  · refine all_node.2 ⟨hP.added _ (by simp [hl, NodeType.added]), fun k hk => ?_⟩
    rcases List.mem_cons.1 hk with rfl | hk
    · exact hstmt
    · exact h.kid hk
  · exact h

theorem all_ensureBlock {b : Ast} (h : All P b) : All P (ensureBlock b) := by
  rw [ensureBlock]
  split_ifs
  · exact h
  · exact all_listNode (hP.added _ (by simp [NodeType.added])) (by simpa using h)

theorem all_insertGas {b : Ast} (hb : b.type ∈ NodeType.added)
    (h : All P b) : All P (insertGasAfterDirectives b) := by
  obtain ⟨l, ks⟩ := b
  refine all_node.2 ⟨hP.added _ hb, fun k hk => ?_⟩
  rcases List.mem_append.1 hk with hk | hk
  · exact h.kid (List.takeWhile_subset _ hk)
  · rcases List.mem_cons.1 hk with rfl | hk
    · exact all_gasCallStatement hP
    · exact h.kid (List.dropWhile_subset _ hk)

/-- A change in a field of a node that the property does not speak about. -/
theorem all_update_of_type {a : Ast} {field : Field} {f : Ast → Ast}
    (ha : a.type ∈ NodeType.added) (h : All P a)
    (hf : ∀ b, All P b → All P (f b)) : All P (a.update field f) :=
  all_update (hP.added _ ha) (fun _ hk => h.of_mem_kids hk) hf

theorem all_letDeclaration {id init : Ast} (hid : All P id) (hinit : All P init) :
    All P (letDeclaration id init) := by
  refine all_node.2 ⟨hP.added _ (by simp [NodeType.added]), fun k hk => ?_⟩
  rw [List.mem_singleton.1 hk]
  refine all_node.2 ⟨hP.added _ (by simp [NodeType.added]), fun j hj => ?_⟩
  simp only [List.mem_cons, List.not_mem_nil, or_false] at hj
  rcases hj with rfl | rfl
  exacts [hid, hinit]

theorem all_tryStatement {block handler finalizer : Ast} (hblock : All P block)
    (hhandler : All P handler) (hfinalizer : All P finalizer) :
    All P (tryStatement block handler finalizer) := by
  refine all_node.2 ⟨hP.added _ (by simp [NodeType.added]), fun k hk => ?_⟩
  simp only [List.mem_cons, List.not_mem_nil, or_false] at hk
  rcases hk with rfl | rfl | rfl
  exacts [hblock, hhandler, hfinalizer]

theorem all_armHandler {names : ArmedNames} {handler : Ast} (h : All P handler) :
    All P (armHandler names handler) := by
  have hparam := all_child h (hP.added hole (by decide)) .param
  have hcharge : ∀ name b, All P b → All P (unshift (gasCheckStatement name) b) :=
    fun name b hb => all_unshift hP (all_gasCheckStatement hP name) hb
  by_cases hcatch : handler.type = .catchClause
  · have hadded : handler.type ∈ NodeType.added := by
      rw [hcatch]
      decide
    have hbound : All P (handler.update .param fun _ => astIdent names.caught) :=
      all_update_of_type hP hadded h fun _ _ => all_ident hP names.caught
    simp only [armHandler]
    split_ifs
    · exact h
    · exact all_update_of_type hP hadded h (hcharge _)
    · exact all_update_of_type hP hadded hbound (hcharge _)
    · exact all_update_of_type hP hadded (all_update_of_type hP hadded hbound fun b hb =>
        all_unshift hP (all_letDeclaration hP hparam (all_ident hP names.caught)) hb) (hcharge _)
  · rw [armHandler, if_pos hcatch]
    exact h

theorem all_recordHandler (names : ArmedNames) : All P (recordHandler names) := by
  have hident : ∀ name, All P (astIdent name) := all_ident hP
  refine all_node.2 ⟨hP.added _ (by simp [NodeType.added]), fun k hk => ?_⟩
  simp only [List.mem_cons, List.not_mem_nil, or_false] at hk
  rcases hk with rfl | rfl
  · exact hident _
  · refine all_listNode (hP.added _ (by simp [NodeType.added])) fun b hb => ?_
    simp only [List.mem_cons, List.not_mem_nil, or_false] at hb
    rcases hb with rfl | rfl
    · refine all_expressionStatement hP
        (all_node.2 ⟨hP.added _ (by simp [NodeType.added]), fun k hk => ?_⟩)
      simp only [List.mem_cons, List.not_mem_nil, or_false] at hk
      rcases hk with rfl | rfl <;> exact hident _
    · refine all_node.2 ⟨hP.added _ (by simp [NodeType.added]), fun k hk => ?_⟩
      rw [List.mem_singleton.1 hk]
      exact hident _

theorem all_armTryStatement {names : ArmedNames} {a : Ast} (ha : a.type = .tryStatement)
    (h : All P a) : All P (armTryStatement names a) := by
  have hhole := hP.added hole (by decide)
  have harmed : All P ((a.update .block (unshift gasCallStatement)).update .handler
      (armHandler names)) := by
    have hadded : a.type ∈ NodeType.added := by
      rw [ha]
      decide
    exact all_update_of_type hP hadded (all_update_of_type hP hadded h fun b hb =>
      all_unshift hP (all_gasCallStatement hP) hb) fun b hb => all_armHandler hP hb
  have hfinal := all_unshift hP (all_gasCheckStatement hP names.flag)
    (all_child h hhole .finalizer)
  have houter : ∀ guarded, All P guarded → All P (blockStatement
      [letDeclaration (astIdent names.flag) hole, tryStatement guarded (recordHandler names)
        (unshift (gasCheckStatement names.flag) (a.child .finalizer))]) := by
    intro guarded hguarded
    refine all_listNode (hP.added _ (by simp [NodeType.added])) fun b hb => ?_
    simp only [List.mem_cons, List.not_mem_nil, or_false] at hb
    rcases hb with rfl | rfl
    · exact all_letDeclaration hP (all_ident hP names.flag) (all_hole hP)
    · exact all_tryStatement hP hguarded (all_recordHandler hP names) hfinal
  have hblock := all_child harmed hhole .block
  rw [armTryStatement]
  by_cases hfinalizer : isHole (a.child .finalizer) = true
  · rw [if_pos hfinalizer]
    exact harmed
  · rw [if_neg hfinalizer]
    refine houter _ ?_
    by_cases hhandler : isHole (a.child .handler) = true
    · rw [if_pos hhandler]
      exact hblock
    · rw [if_neg hhandler]
      refine all_listNode (hP.added _ (by simp [NodeType.added])) fun b hb => ?_
      rw [List.mem_singleton.1 hb]
      exact all_tryStatement hP hblock (all_child harmed hhole .handler)
        (all_leaf hP (by simp [NodeType.added]))

omit hP in
/-- A change in a field, by what it does to the parts. -/
theorem all_kids_update {a : Ast} {field : Field} {f : Ast → Ast}
    (h : ∀ k ∈ a.kids, All P k.2) (hf : ∀ b, All P b → All P (f b)) :
    ∀ k ∈ (a.update field f).kids, All P k.2 := by
  intro k hk
  rcases mem_updateKids hk with hmem | ⟨b, hb, rfl⟩
  · exact h k hmem
  · exact hf b (h _ hb)

/-- What the charges of a node keep in its parts. -/
theorem all_kids_chargeEntry {a : Ast} (h : ∀ k ∈ a.kids, All P k.2) :
    ∀ k ∈ (chargeEntry armed a).kids, All P k.2 := by
  have hunshift : ∀ b, All P b → All P (unshift gasCallStatement b) :=
    fun b hb => all_unshift hP (all_gasCallStatement hP) hb
  have hbody : ∀ b, All P b → All P (unshift gasCallStatement (ensureBlock b)) :=
    fun b hb => hunshift _ (all_ensureBlock hP hb)
  have hfn : ∀ b : Ast, isBlock b = true → All P b → All P (insertGasAfterDirectives b) :=
    fun b hb h => all_insertGas hP (by rw [of_decide_eq_true hb]; decide) h
  unfold chargeEntry
  split
  iterate 2
    refine all_kids_update h fun b hb => ?_
    split_ifs with hblock
    · exact hfn b hblock hb
    · exact hb
  · refine all_kids_update h fun b hb => ?_
    split_ifs with hblock
    · exact hfn b hblock hb
    · exact all_wrapWithGas hP hb
  · refine all_kids_update (all_kids_update h hbody) fun b hb => ?_
    split_ifs
    · exact all_gasCallExpr hP
    · exact all_wrapWithGas hP hb
  iterate 4 exact all_kids_update h hbody
  · refine all_kids_update (all_kids_update h hbody) fun b hb => ?_
    split_ifs
    · exact hb
    · exact hbody b hb
  · split_ifs
    · exact h
    · intro k hk
      rcases List.mem_append.1 hk with hk | hk
      · exact h k (List.takeWhile_subset _ hk)
      · rcases List.mem_cons.1 hk with rfl | hk
        · exact all_gasCallStatement hP
        · exact h k (List.dropWhile_subset _ hk)
  · rename_i htype
    split
    · have hall : All P a := by
        obtain ⟨l, ks⟩ := a
        exact all_node.2 ⟨hP.added _ (by rw [htype]; decide), h⟩
      exact fun k hk => (all_armTryStatement hP htype hall).of_mem_kids hk
    · refine all_kids_update (all_kids_update (all_kids_update h hunshift) fun b hb => ?_) hunshift
      rw [chargeHandler]
      split_ifs with hcatch
      · exact all_update_of_type hP (by rw [hcatch]; decide) hb hunshift
      · exact hb
  · exact all_kids_update h fun b hb => all_wrapWithGas hP hb
  · exact h

theorem all_chargeEntry {a : Ast} (hself : P (chargeEntry armed a))
    (h : ∀ k ∈ a.kids, All P k.2) : All P (chargeEntry armed a) := by
  have hkids : ∀ k ∈ (chargeEntry armed a).kids, All P k.2 := all_kids_chargeEntry hP h
  cases heq : chargeEntry armed a with
  | node l ks =>
    rw [heq] at hself hkids
    exact all_node.2 ⟨hself, hkids⟩

end Neutral

/-! ### Charges in expressions -/

/-- A chain of operators whose left is an operand. -/
def Chained (a : Ast) : Prop :=
  a.type = .binaryExpression → ∀ b : Ast, (.left, b) ∈ a.kids → b.type.isOperand = true

theorem neutral_chained : Neutral Chained where
  added a ha ht := by simp [ht, NodeType.added] at ha
  gas args ht := by cases ht

theorem wrapLeft_eq (n : ℕ) (a : Ast) : ∃ f : Ast → Ast, wrapLeft n a = a.update .left f := by
  cases n <;> exact ⟨_, rfl⟩

theorem type_wrapLeft (n : ℕ) (a : Ast) : (wrapLeft n a).type = a.type := by
  obtain ⟨f, hf⟩ := wrapLeft_eq n a
  rw [hf, type_update]

/-- A property of calls and chains keeps with a charge down a chain. -/
theorem all_wrapLeft {P : Ast → Prop} (hP : Neutral P)
    (hleft : ∀ (a : Ast) (f : Ast → Ast), a.type = .binaryExpression → P a →
      (∀ b, (Ast.type (f b)).isOperand = true) → P (a.update .left f)) (n : ℕ) {a : Ast}
    (ha : a.type = .binaryExpression) (h : All P a) : All P (wrapLeft n a) := by
  induction n generalizing a with
  | zero =>
    exact all_update (hleft a _ ha h.self fun b => rfl) (fun _ hk => h.of_mem_kids hk)
      fun b hb => all_wrapWithGas hP hb
  | succ n ih =>
    refine all_update (hleft a _ ha h.self fun b => ?_) (fun _ hk => h.of_mem_kids hk)
      fun b hb => ?_
    · split_ifs with hchain
      · rw [type_wrapLeft, hchain]
        rfl
      · rfl
    · split_ifs with hchain
      · exact ih hchain hb
      · exact all_wrapWithGas hP hb

theorem all_chargeChain {P : Ast → Prop} (hP : Neutral P)
    (hleft : ∀ (a : Ast) (f : Ast → Ast), a.type = .binaryExpression → P a →
      (∀ b, (Ast.type (f b)).isOperand = true) → P (a.update .left f)) {a : Ast} (h : All P a) :
    All P (chargeChain a) := by
  rw [chargeChain]
  split_ifs with hchain
  · exact all_wrapLeft hP hleft 10 hchain.1 h
  · exact h

theorem eraseCharges_wrapLeft (n : ℕ) {a : Ast} (ha : a.type = .binaryExpression)
    (h : All Chained a) : eraseCharges armed (wrapLeft n a) = eraseCharges armed a := by
  induction n generalizing a with
  | zero =>
    exact eraseCharges_update fun b hb =>
      eraseCharges_wrapWithGas (isForm_of_isOperand (h.self ha b hb))
  | succ n ih =>
    refine eraseCharges_update fun b hb => ?_
    split_ifs with hchain
    · exact ih hchain (h.of_mem_kids hb)
    · exact eraseCharges_wrapWithGas (isForm_of_isOperand (h.self ha b hb))

theorem injectBinaryDepthGas_node : injectBinaryDepthGas (.node l ks) =
    chargeChain (.node l (mapKids injectBinaryDepthGas ks)) := rewrite_node _ l ks

theorem label_chargeChain (a : Ast) : (chargeChain a).label = a.label := by
  rw [chargeChain]
  split_ifs
  · rfl
  · rfl

theorem label_injectBinaryDepthGas (a : Ast) : (injectBinaryDepthGas a).label = a.label := by
  obtain ⟨l, ks⟩ := a
  rw [injectBinaryDepthGas_node, label_chargeChain, label_node, label_node]

theorem Chained.mapKids {f : Ast → Ast} (hf : KeepsTypes f) (h : Chained (.node l ks)) :
    Chained (.node l (mapKids f ks)) := by
  intro ht b hb
  obtain ⟨⟨place, c⟩, hc, heq⟩ := mem_mapKids.1 hb
  obtain ⟨rfl, rfl⟩ := Prod.mk.inj heq
  exact (hf c).isOperand (h ht c hc)

theorem keepsTypes_injectBinaryDepthGas : KeepsTypes injectBinaryDepthGas :=
  fun b => by
    have htype : (injectBinaryDepthGas b).type = b.type :=
      congrArg Label.type (label_injectBinaryDepthGas b)
    exact ⟨by rintro rfl; rfl, fun _ => by rw [htype], fun h => by simp [htype, h]⟩

theorem chained_left (a : Ast) (f : Ast → Ast) (_ : a.type = .binaryExpression) (_ : Chained a)
    (hf : ∀ b, (Ast.type (f b)).isOperand = true) : Chained (a.update .left f) := by
  intro _ b hb
  obtain ⟨⟨place, c⟩, -, heq⟩ := List.mem_map.1 hb
  split_ifs at heq with hplace
  · obtain ⟨-, rfl⟩ := Prod.mk.inj heq
    exact hf c
  · exact absurd (Prod.mk.inj heq).1 hplace

/-- A node without a charge of its own stays, and no charged node is a call or a chain. -/
theorem chargeEntry_cases (armed : Option ArmedNames) (a : Ast) : chargeEntry armed a = a ∨
    (chargeEntry armed a).type ∉ [.callExpression, .binaryExpression] := by
  by_cases h : a.type ∈ [.callExpression, .binaryExpression]
  · refine .inl ?_
    simp only [List.mem_cons, List.not_mem_nil, or_false] at h
    unfold chargeEntry
    rcases h with ht | ht <;> simp only [ht]
  · by_cases htry : a.type = .tryStatement
    · refine .inr fun hmem => ?_
      have htype := type_chargeEntry_try armed htry
      simp only [List.mem_cons, List.not_mem_nil, or_false] at htype hmem
      rcases htype with ht | ht <;> simp [ht] at hmem
    · rw [type_chargeEntry htry]
      exact .inr h

/-- The entry charges keep a property of calls and chains. -/
theorem all_injectBlockGas {P : Ast → Prop} (hP : Neutral P)
    (hother : ∀ a : Ast, a.type ∉ [.callExpression, .binaryExpression] → P a)
    (hmap : ∀ l ks, P (.node l ks) → P (.node l (mapKids (injectBlockGas armed) ks))) {a : Ast}
    (h : All P a) : All P (injectBlockGas armed a) := by
  refine all_rewrite a fun l ks ho hkids => all_chargeEntry hP ?_ (all_mapKids hkids)
  rcases chargeEntry_cases armed
    (.node l (mapKids (rewrite (chargeEntry armed)) ks)) with heq | htype
  · rw [heq]
    exact hmap l ks (h _ ho)
  · exact hother _ htype

theorem chained_of_type {a : Ast} (h : a.type ∉ [.callExpression, .binaryExpression]) :
    Chained a := fun ht => by simp [ht] at h

theorem all_chained_injectBinaryDepthGas {a : Ast} (h : All Chained a) :
    All Chained (injectBinaryDepthGas a) := by
  refine all_rewrite a fun l ks ho hkids => ?_
  refine all_chargeChain neutral_chained chained_left (all_node.2 ⟨?_, all_mapKids hkids⟩)
  have hnode : Chained (.node l ks) := h _ ho
  exact hnode.mapKids keepsTypes_injectBinaryDepthGas

/-- **The charges of long chains are taken out again.** -/
theorem eraseCharges_injectBinaryDepthGas {a : Ast} (h : All Chained a) :
    eraseCharges armed (injectBinaryDepthGas a) = eraseCharges armed a := by
  refine (rewrite_absorbs a fun l ks ho _ => ?_).self
  change eraseCharges armed (chargeChain (.node l (mapKids injectBinaryDepthGas ks))) =
    eraseCharges armed (.node l (mapKids injectBinaryDepthGas ks))
  have hocc : All Chained (.node l ks) := fun s hs => h s (hs.trans ho)
  have hall : All Chained (.node l (mapKids injectBinaryDepthGas ks)) :=
    all_node.2 ⟨hocc.self.mapKids keepsTypes_injectBinaryDepthGas,
      all_mapKids fun k hk => all_chained_injectBinaryDepthGas (hocc.kid hk)⟩
  rw [chargeChain]
  split_ifs with hchain
  · exact eraseCharges_wrapLeft 10 hchain.1 hall
  · rfl

theorem type_of_isCharged {a : Ast} (h : isCharged a = true) : a.type = .callExpression := by
  simp only [isCharged, Bool.and_eq_true] at h
  exact of_decide_eq_true h.1.1

/-- **The charges before calls are taken out again.** -/
theorem eraseCharges_injectCallGas (a : Ast) :
    eraseCharges armed (injectCallGas a) = eraseCharges armed a := by
  have hinner : ∀ (place : Place) (b : Ast),
      eraseCharges armed (chargeCalls place b) = eraseCharges armed b := by
    refine rewriteFrom_absorbs fun place l ks => ?_
    change eraseCharges armed (chargeCall place (.node l ks)) = eraseCharges armed (.node l ks)
    rw [chargeCall]
    split_ifs with hcall
    · refine eraseCharges_wrapWithGas ?_
      rw [Bool.and_eq_true] at hcall
      rw [type_of_isCharged hcall.1]
      rfl
    · rfl
  obtain ⟨l, ks⟩ := a
  rw [injectCallGas, eraseCharges_node, eraseCharges_node, mapKids_mapKids]
  exact congrArg _ (congrArg _ (mapKids_congr fun k _ => hinner _ k.2))

end XChainSdk
