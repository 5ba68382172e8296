import XChainSdk.Contract.Metering

/-!
# What metering adds

* `eraseCharge` : takes the charges out again.
* `unguard` : takes the depth guards out again.
* `blockForm` : the forms that metering spells out: the block of a lone statement, the block of
  an arrow, and a `try` with both a handler and a finalizer.
* `meterCode_erases` : **without what it adds, a metered source is the source**, with its
  allocators converted and in block form.
-/

namespace XChainSdk

open Rose Ast

/-! ### Taking charges out -/

def isGasStatement (a : Ast) : Bool :=
  a.type = .expressionStatement && isCallOf "__gas" (a.child .expression)

def dropCharges (ks : List (Field × Ast)) : List (Field × Ast) :=
  ks.filter fun k => !isGasStatement k.2

def isNamed (name : String) (a : Ast) : Bool := a.type = .identifier && a.label.name = name

/-- A declaration whose declarator has that name in that field. -/
def declares (field : Field) (name : String) (a : Ast) : Bool :=
  let d := a.child .declarations
  a.type = .variableDeclaration && d.type = .variableDeclarator && isNamed name (d.child field)

/-- A `try` whose handler stands inside, where there is a finalizer too. -/
def spellTry (a : Ast) : Ast :=
  if isHole (a.child .finalizer) then a
  else
    let block := if isHole (a.child .handler) then a.child .block
      else blockStatement [tryStatement (a.child .block) (a.child .handler) hole]
    tryStatement block hole (a.child .finalizer)

/-- The forms that metering spells out. -/
def blockForm (armed : Option ArmedNames) (a : Ast) : Ast :=
  match a.type with
  | .arrowFunctionExpression => blockBodied a
  | .forStatement | .whileStatement | .doWhileStatement | .forInStatement | .forOfStatement =>
    a.update .body ensureBlock
  | .ifStatement =>
    (a.update .consequent ensureBlock).update .alternate fun b =>
      if b.type = .ifStatement then b else ensureBlock b
  | .tryStatement => if armed.isSome then spellTry a else a
  | _ => a

/-- The `try` inside the block that an armed `try` becomes, once that is spelled. -/
def disarm (armed : Option ArmedNames) (a : Ast) : Ast :=
  match armed, a.kids with
  | some names, [(_, decl), (_, t)] =>
    if declares .id names.flag decl then
      let recorded := child (child t .block) .body
      tryStatement (recorded.child .block) hole (child t .finalizer)
    else a
  | _, _ => a

/-- The binding of a handler that an armed handler destructures inside. -/
def unbind (names : ArmedNames) (a : Ast) : Ast :=
  if !isNamed names.caught (a.child .param) then a
  else match (a.child .body).kids with
    | (_, decl) :: rest =>
      if declares .init names.caught decl then
        (a.update .param fun _ => child (child decl .declarations) .id).update .body fun b =>
          .node b.label rest
      else a.update .param fun _ => hole
    | [] => a.update .param fun _ => hole

/-- The types that decide how metering spells the node around. -/
def NodeType.isForm : NodeType → Bool
  | .blockStatement | .hole | .ifStatement => true
  | _ => false

/-- One node without its charges, once its parts are without theirs. -/
def eraseCharge (armed : Option ArmedNames) (a : Ast) : Ast :=
  match a.type with
  | .program | .switchCase => .node a.label (dropCharges a.kids)
  | .blockStatement => disarm armed (.node a.label (dropCharges a.kids))
  | .sequenceExpression =>
    match a.kids with
    | [(_, g), (_, e)] => if isCallOf "__gas" g && !(Ast.type e).isForm then e else a
    | _ => a
  | .forStatement =>
    (a.update .body ensureBlock).update .update fun u => if isCallOf "__gas" u then hole else u
  | .catchClause =>
    match armed with
    | some names => unbind names a
    | none => a
  | _ => blockForm armed a

/-- A source without its charges. -/
def eraseCharges (armed : Option ArmedNames) (a : Ast) : Ast := rewrite (eraseCharge armed) a

variable {armed : Option ArmedNames} {l : Label} {ks : List (Field × Ast)}

theorem eraseCharges_node : eraseCharges armed (.node l ks) =
    eraseCharge armed (.node l (mapKids (eraseCharges armed) ks)) := rewrite_node _ l ks

/-- A node that is charged under one field only. -/
theorem eraseCharges_update {a : Ast} {field : Field} {f : Ast → Ast}
    (h : ∀ b, (field, b) ∈ a.kids → eraseCharges armed (f b) = eraseCharges armed b) :
    eraseCharges armed (a.update field f) = eraseCharges armed a := by
  obtain ⟨l, ks⟩ := a
  change eraseCharges armed (.node l (updateKids field f ks)) = _
  rw [eraseCharges_node, eraseCharges_node,
    mapKids_updateKids (show ∀ b, (field, b) ∈ ks → _ from h)]

theorem eraseCharges_leaf {l : Label} (h : eraseCharge armed (.node l []) = .node l []) :
    eraseCharges armed (.node l []) = .node l [] := by
  rw [eraseCharges_node, mapKids_nil, h]

@[simp] theorem eraseCharges_ident (name : String) :
    eraseCharges armed (astIdent name) = astIdent name := eraseCharges_leaf rfl

@[simp] theorem eraseCharges_literal (v : LiteralValue) :
    eraseCharges armed (astLiteral v) = astLiteral v := eraseCharges_leaf rfl

@[simp] theorem eraseCharges_hole : eraseCharges armed hole = hole := eraseCharges_leaf rfl

@[simp] theorem eraseCharges_gasCallExpr : eraseCharges armed gasCallExpr = gasCallExpr := by
  rw [gasCallExpr, astCall, eraseCharges_node]
  simp [eraseCharge, blockForm]

@[simp] theorem eraseCharges_gasCallStatement :
    eraseCharges armed gasCallStatement = gasCallStatement := by
  rw [gasCallStatement, expressionStatement, eraseCharges_node]
  simp [eraseCharge, blockForm]

@[simp] theorem eraseCharges_gasCheckStatement (name : String) :
    eraseCharges armed (gasCheckStatement name) = gasCheckStatement name := by
  rw [gasCheckStatement, expressionStatement, eraseCharges_node]
  simp only [mapKids_cons, mapKids_nil]
  rw [astCall, eraseCharges_node]
  simp [eraseCharge, blockForm]

@[simp] theorem isGasStatement_gasCallStatement : isGasStatement gasCallStatement = true := by
  decide

@[simp] theorem isGasStatement_gasCheckStatement (name : String) :
    isGasStatement (gasCheckStatement name) = true := rfl

theorem dropCharges_cons_of_gas {field : Field} {a : Ast} (h : isGasStatement a = true) :
    dropCharges ((field, a) :: ks) = dropCharges ks := by
  rw [dropCharges, List.filter_cons_of_neg (by simpa using h)]
  rfl

/-- A charge at the front of a block is taken out again. -/
theorem eraseCharges_unshift {stmt : Ast} (hstmt : eraseCharges armed stmt = stmt)
    (h : isGasStatement stmt = true) (b : Ast) :
    eraseCharges armed (unshift stmt b) = eraseCharges armed b := by
  obtain ⟨l, ks⟩ := b
  rw [unshift]
  split_ifs with hl
  · rw [eraseCharges_node, eraseCharges_node, mapKids_cons, hstmt]
    simp only [eraseCharge, type_node, hl, label_node, kids_node, dropCharges_cons_of_gas h]
  · rfl

theorem type_unbind (names : ArmedNames) (a : Ast) : (unbind names a).type = a.type := by
  rw [unbind]
  split_ifs
  · rfl
  · split
    · split_ifs <;> rfl
    · rfl

theorem type_blockBodied (a : Ast) : (blockBodied a).type = a.type := by
  rw [blockBodied]
  split_ifs <;> rfl

theorem type_blockForm (a : Ast) : (blockForm armed a).type = a.type := by
  rw [blockForm]
  split
  · exact type_blockBodied a
  all_goals try rfl
  · rename_i htype
    split_ifs
    · simp only [spellTry]
      split_ifs
      · rfl
      · exact htype.symm
      · exact htype.symm
    · rfl

/-- Only a block and a sequence lose their type. -/
theorem type_eraseCharge {a : Ast} (hblock : a.type ≠ .blockStatement)
    (hseq : a.type ≠ .sequenceExpression) : (eraseCharge armed a).type = a.type := by
  unfold eraseCharge
  split
  · rfl
  · rfl
  · contradiction
  · contradiction
  · rfl
  · split
    · exact type_unbind _ _
    · rfl
  · exact type_blockForm a

/-- A node of another type does not become a block, a hole or a condition. -/
theorem eraseCharges_ne {t : NodeType} (ht : t.isForm = true) {a : Ast} (h : a.type ≠ t) :
    (eraseCharges armed a).type ≠ t := by
  obtain ⟨l, ks⟩ := a
  rw [eraseCharges_node]
  by_cases hblock : l.type = .blockStatement
  · simp only [eraseCharge, type_node, hblock, disarm]
    split
    · split_ifs
      · rintro rfl
        cases ht
      · exact h
    · exact h
  · by_cases hseq : l.type = .sequenceExpression
    · simp only [eraseCharge, type_node, hseq, kids_node]
      split
      · split_ifs with he
        · rintro rfl
          simp [ht] at he
        · exact h
      · exact h
    · rw [type_eraseCharge (a := .node l _) hblock hseq]
      exact h

theorem isForm_eraseCharges {b : Ast} (h : b.type.isForm = false) :
    (eraseCharges armed b).type.isForm = false := by
  refine Bool.eq_false_iff.2 fun hform => ?_
  have hne : (eraseCharges armed b).type ≠ (eraseCharges armed b).type :=
    eraseCharges_ne hform fun heq => ?_
  exact hne rfl
  rw [heq, hform] at h
  cases h

theorem eraseCharges_wrapWithGas {b : Ast} (h : b.type.isForm = false) :
    eraseCharges armed (wrapWithGas b) = eraseCharges armed b := by
  rw [wrapWithGas, listNode, eraseCharges_node]
  simp only [List.map_cons, List.map_nil, mapKids_cons, mapKids_nil, eraseCharges_gasCallExpr,
    eraseCharge, type_node, kids_node, isForm_eraseCharges h, Bool.not_false, Bool.and_true]
  rfl

/-! ### Sources -/

/-- The types of nodes that are no operands. -/
def NodeType.isOperand (t : NodeType) : Bool := !t.isForm && t ≠ .tryStatement

/-- The types that a grammar tells apart here. -/
def NodeType.told : List NodeType :=
  [.hole, .program, .blockStatement, .ifStatement, .tryStatement, .catchClause, .identifier,
    .metaProperty, .arrayPattern, .objectPattern]

def NodeType.category (t : NodeType) : Option NodeType := if t ∈ NodeType.told then some t else none

theorem NodeType.isOperand_eq (t : NodeType) : t.isOperand =
    decide (t.category ∉
      [some .hole, some .blockStatement, some .ifStatement, some .tryStatement]) := by
  cases t <;> rfl

theorem NodeType.eq_of_category {t t' : NodeType} (h : t'.category = t.category)
    (ht : t ∈ NodeType.told) : t' = t := by
  rw [category, category, if_pos ht] at h
  split_ifs at h
  exact Option.some.inj h

/-- What a parser sees to in the nodes that metering changes. -/
structure Grammatical (a : Ast) : Prop where
  tries : a.type = .tryStatement → ∃ block handler finalizer : Ast,
    a.kids = [(.block, block), (.handler, handler), (.finalizer, finalizer)] ∧
      block.type = .blockStatement ∧ (handler = hole ∨ handler.type = .catchClause) ∧
      (finalizer = hole ∨ finalizer.type = .blockStatement)
  catches : a.type = .catchClause → ∃ param body : Ast, a.kids = [(.param, param), (.body, body)] ∧
    (param = hole ∨ param.type ∈ [.identifier, .arrayPattern, .objectPattern]) ∧
    body.type = .blockStatement
  tests : a.type = .conditionalExpression → ∀ b : Ast, (.test, b) ∈ a.kids → b.type.isOperand = true
  chains : a.type = .binaryExpression → ∀ b : Ast, (.left, b) ∈ a.kids → b.type.isOperand = true
  updates : a.type = .forStatement → ∀ b : Ast, (.update, b) ∈ a.kids →
    b = hole ∨ b.type.isOperand = true
  arrows : a.type = .arrowFunctionExpression → ∀ b : Ast, (.body, b) ∈ a.kids →
    b.type = .blockStatement ∨ b.type.isOperand = true
  rights : a.type = .assignmentExpression → (a.child .right).type.isOperand = true
  templates : a.type = .taggedTemplateExpression →
    (a.child .quasi).type.isOperand = true ∧ (a.child .quasi).type ≠ .metaProperty
  loops : a.type ∈ [.forStatement, .whileStatement, .doWhileStatement, .forInStatement,
    .forOfStatement] → ∀ b : Ast, (.body, b) ∈ a.kids → b.type ≠ .hole
  branches : a.type = .ifStatement → ∀ b : Ast, (.consequent, b) ∈ a.kids → b.type ≠ .hole
  functions : a.type ∈ [.functionDeclaration, .functionExpression] →
    ∀ b : Ast, (.body, b) ∈ a.kids → b.type = .blockStatement

/-- A node without the names of what metering adds. -/
structure Free (armed : Option ArmedNames) (a : Ast) : Prop where
  gas : isCallOf "__gas" a = false
  flag : ∀ names ∈ armed, declares .id names.flag a = false
  caught : ∀ names ∈ armed, declares .init names.caught a = false
  param : ∀ names ∈ armed, a.type = .catchClause → isNamed names.caught (a.child .param) = false

/-- A node in the place of another, for a grammar. -/
structure SameKind (b b' : Ast) : Prop where
  hole : b = Ast.hole → b' = Ast.hole
  category : b.type ≠ .tryStatement → b'.type.category = b.type.category
  attempt : b.type = .tryStatement → b'.type ∈ [.tryStatement, .blockStatement]

section SameKind

variable {b b' : Ast}

theorem SameKind.type_eq (h : SameKind b b') {t : NodeType} (ht : b.type = t)
    (htry : t ≠ .tryStatement) (htold : t ∈ NodeType.told) : b'.type = t := by
  subst ht
  exact NodeType.eq_of_category (h.category htry) htold

theorem SameKind.refl (b : Ast) : SameKind b b := ⟨id, fun _ => rfl, fun h => by simp [h]⟩

theorem SameKind.ne_hole (h : SameKind b b') (hb : b.type ≠ .hole) : b'.type ≠ .hole := by
  by_cases ht : b.type = .tryStatement
  · intro heq
    have hmem := h.attempt ht
    rw [heq] at hmem
    cases hmem with
    | tail _ hmem => cases hmem with
      | tail _ hmem => cases hmem
  · intro heq
    have hcategory := h.category ht
    rw [heq] at hcategory
    exact hb (NodeType.eq_of_category hcategory.symm (by decide))

theorem ne_tryStatement_of_isOperand (hb : b.type.isOperand = true) : b.type ≠ .tryStatement := by
  intro heq
  rw [heq] at hb
  cases hb

theorem SameKind.isOperand (h : SameKind b b') (hb : b.type.isOperand = true) :
    b'.type.isOperand = true := by
  have hne := ne_tryStatement_of_isOperand hb
  rw [NodeType.isOperand_eq] at hb ⊢
  rw [h.category hne]
  exact hb

theorem SameKind.type_ne (h : SameKind b b') {t : NodeType} (hb : b.type.isOperand = true)
    (htold : t ∈ NodeType.told) (hne : b.type ≠ t) : b'.type ≠ t := by
  rintro rfl
  exact hne (NodeType.eq_of_category (h.category (ne_tryStatement_of_isOperand hb)).symm htold)

theorem SameKind.orHole (h : SameKind b b') {p p' : Prop} (hp : p → p') (hb : b = Ast.hole ∨ p) :
    b' = Ast.hole ∨ p' :=
  hb.imp h.hole hp

/-- The branches of a node with others in their places. -/
def SameKinds : List (Field × Ast) → List (Field × Ast) → Prop :=
  List.Forall₂ fun k k' => k.1 = k'.1 ∧ SameKind k.2 k'.2

theorem SameKinds.child {ks ks' : List (Field × Ast)} (h : SameKinds ks ks') {l l' : Label}
    (field : Field) : SameKind (child (.node l ks) field) (child (.node l' ks') field) := by
  induction h with
  | nil => exact .refl hole
  | cons hk _ ih =>
    obtain ⟨hfield, hkept⟩ := hk
    rename_i k k' ks ks' _
    obtain ⟨place, b⟩ := k
    obtain ⟨place', b'⟩ := k'
    obtain rfl : place = place' := hfield
    by_cases hf : place = field
    · simpa [Ast.child, nodes, hf] using hkept
    · simpa [Ast.child, nodes, hf] using ih

theorem SameKinds.mem {ks ks' : List (Field × Ast)} (h : SameKinds ks ks') {field : Field}
    {b' : Ast} (hb : (field, b') ∈ ks') : ∃ b, (field, b) ∈ ks ∧ SameKind b b' := by
  induction h with
  | nil => cases hb
  | cons hk _ ih =>
    rcases List.mem_cons.1 hb with rfl | hmem
    · rename_i k _ _ _
      obtain ⟨place, b⟩ := k
      obtain rfl : place = field := hk.1
      exact ⟨b, List.mem_cons_self, hk.2⟩
    · obtain ⟨b, hb, hkept⟩ := ih hmem
      exact ⟨b, List.mem_cons_of_mem _ hb, hkept⟩

end SameKind

/-- A grammar does not look further than at what stands in which place. -/
theorem Grammatical.of_sameKinds {ks' : List (Field × Ast)} (hks : SameKinds ks ks')
    (h : Grammatical (.node l ks)) : Grammatical (.node l ks') where
  tries ht := by
    obtain ⟨block, handler, finalizer, heq, hblock, hhandler, hfinalizer⟩ := h.tries ht
    rw [kids_node] at heq
    subst heq
    cases hks with
    | cons hb hks =>
    cases hks with
    | cons hh hks =>
    cases hks with
    | cons hf hks =>
    cases hks with
    | nil =>
    rename_i b' h' f'
    obtain ⟨b, block'⟩ := b'
    obtain ⟨h, handler'⟩ := h'
    obtain ⟨f, finalizer'⟩ := f'
    obtain ⟨rfl, hb⟩ := hb
    obtain ⟨rfl, hh⟩ := hh
    obtain ⟨rfl, hf⟩ := hf
    dsimp only at hb hh hf
    exact ⟨block', handler', finalizer', rfl, hb.type_eq hblock (by decide) (by decide),
      hh.orHole (fun hc => hh.type_eq hc (by decide) (by decide)) hhandler,
      hf.orHole (fun hc => hf.type_eq hc (by decide) (by decide)) hfinalizer⟩
  catches ht := by
    obtain ⟨param, body, heq, hparam, hbody⟩ := h.catches ht
    rw [kids_node] at heq
    subst heq
    cases hks with
    | cons hp hks =>
    cases hks with
    | cons hb hks =>
    cases hks with
    | nil =>
    rename_i p' b'
    obtain ⟨p, param'⟩ := p'
    obtain ⟨b, body'⟩ := b'
    obtain ⟨rfl, hp⟩ := hp
    obtain ⟨rfl, hb⟩ := hb
    refine ⟨param', body', rfl, hp.orHole (fun hmem => ?_) hparam,
      hb.type_eq hbody (by decide) (by decide)⟩
    simp only [List.mem_cons, List.not_mem_nil, or_false] at hmem
    rcases hmem with ht | ht | ht <;> rw [hp.type_eq ht (by decide) (by decide)] <;> decide
  tests ht b hb := by
    obtain ⟨c, hc, hkept⟩ := hks.mem hb
    exact hkept.isOperand (h.tests ht c hc)
  chains ht b hb := by
    obtain ⟨c, hc, hkept⟩ := hks.mem hb
    exact hkept.isOperand (h.chains ht c hc)
  updates ht b hb := by
    obtain ⟨c, hc, hkept⟩ := hks.mem hb
    exact hkept.orHole hkept.isOperand (h.updates ht c hc)
  arrows ht b hb := by
    obtain ⟨c, hc, hkept⟩ := hks.mem hb
    exact (h.arrows ht c hc).imp (fun hb => hkept.type_eq hb (by decide) (by decide))
      hkept.isOperand
  rights ht := (hks.child .right).isOperand (h.rights ht)
  templates ht :=
    have hq := h.templates ht
    ⟨(hks.child .quasi).isOperand hq.1, (hks.child .quasi).type_ne hq.1 (by decide) hq.2⟩
  loops ht b hb := by
    obtain ⟨c, hc, hkept⟩ := hks.mem hb
    exact hkept.ne_hole (h.loops ht c hc)
  branches ht b hb := by
    obtain ⟨c, hc, hkept⟩ := hks.mem hb
    exact hkept.ne_hole (h.branches ht c hc)
  functions ht b hb := by
    obtain ⟨c, hc, hkept⟩ := hks.mem hb
    exact hkept.type_eq (h.functions ht c hc) (by decide) (by decide)

/-- A function on trees that a grammar does not see. -/
def KeepsTypes (f : Ast → Ast) : Prop := ∀ b, SameKind b (f b)

theorem sameKinds_mapKids {f : Ast → Ast} (hf : KeepsTypes f) : SameKinds ks (mapKids f ks) := by
  induction ks with
  | nil => exact .nil
  | cons k ks ih => exact .cons ⟨rfl, hf k.2⟩ ih

theorem Grammatical.mapKids {f : Ast → Ast} (hf : KeepsTypes f) (h : Grammatical (.node l ks)) :
    Grammatical (.node l (mapKids f ks)) := h.of_sameKinds (sameKinds_mapKids hf)

/-! ### Block form -/

/-- A source in block form. -/
def normalise (armed : Option ArmedNames) (a : Ast) : Ast := rewrite (blockForm armed) a

theorem normalise_node : normalise armed (.node l ks) =
    blockForm armed (.node l (mapKids (normalise armed) ks)) := rewrite_node _ l ks

theorem type_normalise (a : Ast) : (normalise armed a).type = a.type := by
  obtain ⟨l, ks⟩ := a
  rw [normalise_node, type_blockForm]
  rfl

@[simp] theorem normalise_hole : normalise armed hole = hole := rfl

theorem label_blockForm {a : Ast} (h : a.type ≠ .tryStatement) :
    (blockForm armed a).label = a.label := by
  unfold blockForm
  split
  · rename_i htype
    rw [blockBodied, if_pos htype]
    rfl
  all_goals first | rfl | contradiction

theorem isNamed_normalise {name : String} (a : Ast) :
    isNamed name (normalise armed a) = isNamed name a := by
  obtain ⟨l, ks⟩ := a
  rw [isNamed, isNamed, type_normalise]
  by_cases h : l.type = .identifier
  · have hne : l.type ≠ .tryStatement := by
      rw [h]
      decide
    rw [normalise_node, label_blockForm (a := .node l _) hne]
    rfl
  · simp [h]

theorem isCallOf_eq (name : String) (a : Ast) :
    isCallOf name a = (a.type = .callExpression && isNamed name (a.child .callee)) := by
  rw [isCallOf, isNamed, Bool.and_assoc]

/-- A node of another type is free. -/
theorem free_of_type {a : Ast}
    (h : a.type ∉ [.callExpression, .variableDeclaration, .catchClause]) : Free armed a where
  gas := by
    simp only [List.mem_cons, not_or] at h
    simp [isCallOf, h.1]
  flag names _ := by
    simp only [List.mem_cons, not_or] at h
    simp [declares, h.2.1]
  caught names _ := by
    simp only [List.mem_cons, not_or] at h
    simp [declares, h.2.1]
  param names _ ht := by
    simp [ht] at h

theorem free_hole : Free armed hole := free_of_type (by decide)

/-- The node keeps free while the parts keep their types and names. -/
theorem Free.mapKids_normalise (h : Free armed (.node l ks)) :
    Free armed (.node l (mapKids (normalise armed) ks)) := by
  have hchild : ∀ field, child (.node l (mapKids (normalise armed) ks)) field =
      normalise armed (child (.node l ks) field) := fun field => child_mapKids normalise_hole
  have hinner : ∀ (field : Field) (a : Ast), a.type = .variableDeclarator →
      child (normalise armed a) field = normalise armed (a.child field) := by
    intro field a ha
    obtain ⟨l, ks⟩ := a
    rw [normalise_node]
    have hform : blockForm armed (.node l (mapKids (normalise armed) ks)) =
        .node l (mapKids (normalise armed) ks) := by
      simp only [blockForm, type_node, show l.type = .variableDeclarator from ha]
    rw [hform, child_mapKids normalise_hole]
  have hdeclares : ∀ field name, declares field name (.node l (mapKids (normalise armed) ks)) =
      declares field name (.node l ks) := by
    intro field name
    simp only [declares, hchild, type_node, type_normalise]
    by_cases hd : (child (.node l ks) .declarations).type = .variableDeclarator
    · rw [hinner field _ hd, isNamed_normalise]
      rfl
    · simp [hd]
  refine ⟨?_, fun names hn => ?_, fun names hn => ?_, fun names hn ht => ?_⟩
  · rw [isCallOf_eq, hchild, isNamed_normalise, type_node, ← type_node l ks, ← isCallOf_eq]
    exact h.gas
  · rw [hdeclares]
    exact h.flag names hn
  · rw [hdeclares]
    exact h.caught names hn
  · rw [hchild, isNamed_normalise]
    exact h.param names hn ht

theorem all_free_ensureBlock {b : Ast} (h : All (Free armed) b) :
    All (Free armed) (ensureBlock b) := by
  rw [ensureBlock]
  split_ifs
  · exact h
  · exact all_listNode (free_of_type (by simp)) (by simpa using h)

theorem all_free_tryStatement {block handler finalizer : Ast} (hb : All (Free armed) block)
    (hh : All (Free armed) handler) (hf : All (Free armed) finalizer) :
    All (Free armed) (tryStatement block handler finalizer) := by
  refine all_node.2 ⟨free_of_type (by simp), fun k hk => ?_⟩
  simp only [List.mem_cons, List.not_mem_nil, or_false] at hk
  rcases hk with rfl | rfl | rfl
  exacts [hb, hh, hf]

theorem all_free_hole : All (Free armed) hole :=
  all_node.2 ⟨free_hole, List.forall_mem_nil _⟩

/-- Block form adds nothing that metering adds. -/
theorem all_free_blockForm {a : Ast} (h : All (Free armed) a) :
    All (Free armed) (blockForm armed a) := by
  obtain ⟨l, ks⟩ := a
  have hkids : ∀ k ∈ ks, All (Free armed) k.2 := fun k hk => h.kid hk
  unfold blockForm
  split
  · rename_i htype
    rw [blockBodied, if_pos htype]
    refine all_update (free_of_type (by rw [type_update, htype]; decide)) hkids fun b hb => ?_
    split_ifs
    · exact hb
    · refine all_listNode (free_of_type (by simp)) fun c hc => ?_
      rw [List.mem_singleton.1 hc]
      refine all_node.2 ⟨free_of_type (by simp), fun k hk => ?_⟩
      rw [List.mem_singleton.1 hk]
      exact hb
  iterate 5
    rename_i htype
    exact all_update (free_of_type (by rw [type_update, htype]; decide)) hkids fun b =>
      all_free_ensureBlock
  · rename_i htype
    have hconsequent : All (Free armed) (update (.node l ks) .consequent ensureBlock) := all_update
      (free_of_type (by rw [type_update, htype]; decide)) hkids fun b => all_free_ensureBlock
    refine all_update (free_of_type (by rw [type_update, type_update, htype]; decide))
      (fun k hk => hconsequent.kid hk) fun b hb => ?_
    split_ifs
    · exact hb
    · exact all_free_ensureBlock hb
  · split_ifs
    · simp only [spellTry]
      have hblock := all_child h free_hole .block
      have hhandler := all_child h free_hole .handler
      have hfinalizer := all_child h free_hole .finalizer
      split_ifs
      · exact h
      · exact all_free_tryStatement hblock all_free_hole hfinalizer
      · refine all_free_tryStatement (all_listNode (free_of_type (by simp)) fun b hb => ?_)
          all_free_hole hfinalizer
        rw [List.mem_singleton.1 hb]
        exact all_free_tryStatement hblock hhandler all_free_hole
    · exact h
  · exact h

theorem all_free_normalise {a : Ast} (h : All (Free armed) a) :
    All (Free armed) (normalise armed a) := by
  induction a using ind with
  | step l ks ih =>
    rw [normalise_node]
    exact all_free_blockForm (all_node.2
      ⟨h.self.mapKids_normalise, all_mapKids fun k hk => ih k hk (h.kid hk)⟩)

/-- **Nothing is taken out of a source that has nothing that metering adds.** -/
theorem eraseCharges_eq_normalise {a : Ast} (h : All (Free armed) a) :
    eraseCharges armed a = normalise armed a := by
  refine rewrite_congr a fun l ks ho => ?_
  have hnode : All (Free armed) (.node l (mapKids (normalise armed) ks)) := by
    have hocc : All (Free armed) (.node l ks) := fun s hs => h s (hs.trans ho)
    exact all_node.2
      ⟨hocc.self.mapKids_normalise, all_mapKids fun k hk => all_free_normalise (hocc.kid hk)⟩
  change eraseCharge armed (.node l (mapKids (normalise armed) ks)) =
    blockForm armed (.node l (mapKids (normalise armed) ks))
  generalize mapKids (normalise armed) ks = ks' at hnode
  have hdrop : dropCharges ks' = ks' := by
    refine List.filter_eq_self.2 fun k hk => ?_
    have hgas := (all_child (hnode.kid hk) free_hole .expression).self.gas
    simp [isGasStatement, hgas]
  unfold eraseCharge
  split
  all_goals rename_i htype
  · simp only [kids_node, label_node, hdrop, blockForm, htype]
  · simp only [kids_node, label_node, hdrop, blockForm, htype]
  · simp only [kids_node, label_node, hdrop, blockForm, htype, disarm]
    split
    · have hflag := (hnode.kid List.mem_cons_self).self.flag _ rfl
      exact if_neg (by simpa using hflag)
    · rfl
  · simp only [kids_node, blockForm, htype]
    split
    · have hgas := (hnode.kid List.mem_cons_self).self.gas
      exact if_neg (by simpa using fun h => absurd h (by simp [hgas]))
    · rfl
  · simp only [blockForm, htype]
    refine congrArg (Rose.node _) (updateKids_eq_self fun b hb => ?_)
    rcases mem_updateKids hb with hmem | ⟨c, hc, heq⟩
    · rw [(hnode.kid hmem).self.gas]
      rfl
    · cases heq
  · simp only [blockForm, htype]
    split
    · rename_i names
      rw [unbind, hnode.self.param names rfl htype]
      rfl
    · rfl
  · rfl

/-! ### Entry charges -/

theorem isGasStatement_normalise {a : Ast} (h : All (Free armed) a) :
    isGasStatement (normalise armed a) = false := by
  have hgas := (all_child (all_free_normalise h) free_hole .expression).self.gas
  simp [isGasStatement, hgas]

/-- A lone statement that is put into a block with a charge. -/
theorem ensureBlock_charged {b : Ast} (h : isGasStatement (eraseCharges armed b) = false) :
    ensureBlock (eraseCharges armed (unshift gasCallStatement (ensureBlock b))) =
      ensureBlock (eraseCharges armed b) := by
  rw [eraseCharges_unshift eraseCharges_gasCallStatement isGasStatement_gasCallStatement]
  rw [ensureBlock.eq_def b]
  split_ifs with hform
  · rfl
  · simp only [Bool.or_eq_true, isHole, isBlock, decide_eq_true_eq, not_or] at hform
    have hlone : eraseCharges armed (blockStatement [b]) =
        blockStatement [eraseCharges armed b] := by
      rw [blockStatement, listNode, eraseCharges_node]
      simp only [List.map_cons, List.map_nil, mapKids_cons, mapKids_nil, eraseCharge, type_node,
        kids_node, label_node, dropCharges]
      rw [List.filter_cons_of_pos (by simp [h]), List.filter_nil]
      unfold disarm
      split <;> rename_i hks
      · simp at hks
      · rfl
    have hhole : (eraseCharges armed b).type ≠ .hole := eraseCharges_ne rfl hform.1
    have hblock : (eraseCharges armed b).type ≠ .blockStatement := eraseCharges_ne rfl hform.2
    rw [hlone]
    simp [ensureBlock, isHole, isBlock, hhole, hblock, blockStatement, listNode]

theorem eraseCharges_insertGas {b : Ast} (h : b.type = .blockStatement ∨ b.type = .program) :
    eraseCharges armed (insertGasAfterDirectives b) = eraseCharges armed b := by
  obtain ⟨l, ks⟩ := b
  have hdrop : dropCharges (mapKids (eraseCharges armed)
      (ks.takeWhile (fun k => isDirective k.2) ++
        (.body, gasCallStatement) :: ks.dropWhile fun k => isDirective k.2)) =
      dropCharges (mapKids (eraseCharges armed) ks) := by
    conv_rhs => rw [← List.takeWhile_append_dropWhile (p := fun k => isDirective k.2) (l := ks)]
    rw [mapKids_append, mapKids_append, mapKids_cons, eraseCharges_gasCallStatement, dropCharges,
      dropCharges, List.filter_append, List.filter_append,
      List.filter_cons_of_neg (by simp)]
  rw [insertGasAfterDirectives, eraseCharges_node, eraseCharges_node]
  rcases h with h | h <;> rw [type_node] at h <;>
    simp only [eraseCharge, type_node, h, label_node, kids_node, hdrop]

theorem type_insertGas (b : Ast) : (insertGasAfterDirectives b).type = b.type := by
  cases b
  rfl

theorem type_chargeEntry {a : Ast} (h : a.type ≠ .tryStatement) :
    (chargeEntry armed a).type = a.type := by
  unfold chargeEntry
  split
  case h_10 => split_ifs <;> rfl
  all_goals first | rfl | contradiction

theorem type_chargeEntry_try (armed : Option ArmedNames) {a : Ast} (h : a.type = .tryStatement) :
    (chargeEntry armed a).type ∈ [.tryStatement, .blockStatement] := by
  unfold chargeEntry
  simp only [h]
  split
  · rw [armTryStatement]
    by_cases hfinal : isHole (a.child .finalizer) = true
    · rw [if_pos hfinal]
      simp [h]
    · rw [if_neg hfinal]
      simp [blockStatement]
  · simp [h]

theorem injectBlockGas_node : injectBlockGas armed (.node l ks) =
    chargeEntry armed (.node l (mapKids (injectBlockGas armed) ks)) := rewrite_node _ l ks

theorem type_injectBlockGas {b : Ast} (hb : b.type ≠ .tryStatement) :
    (injectBlockGas armed b).type = b.type := by
  obtain ⟨l, ks⟩ := b
  rw [injectBlockGas_node]
  exact type_chargeEntry hb

theorem keepsTypes_injectBlockGas : KeepsTypes (injectBlockGas armed) :=
  fun b => ⟨by rintro rfl; rfl, fun hb => by rw [type_injectBlockGas hb], fun hb => by
    obtain ⟨l, ks⟩ := b
    rw [injectBlockGas_node]
    exact type_chargeEntry_try armed hb⟩

section armed

variable {names : ArmedNames}

theorem eraseCharges_letDeclaration (id init : Ast) :
    eraseCharges armed (letDeclaration id init) =
      letDeclaration (eraseCharges armed id) (eraseCharges armed init) := by
  rw [letDeclaration, variableDeclaration, eraseCharges_node]
  simp only [mapKids_cons, mapKids_nil]
  rw [eraseCharges_node]
  simp [eraseCharge, blockForm, letDeclaration, variableDeclaration]

/-- A block that is not taken for an armed `try`. -/
theorem eraseCharges_block {l : Label} {ks : List (Field × Ast)} (hl : l.type = .blockStatement)
    (h : (eraseCharges armed (.node l ks)).type = .blockStatement) :
    eraseCharges armed (.node l ks) = .node l (dropCharges (mapKids (eraseCharges armed) ks)) := by
  rw [eraseCharges_node] at h ⊢
  simp only [eraseCharge, type_node, hl, label_node, kids_node] at h ⊢
  unfold disarm at h ⊢
  split at h
  · rename_i hks
    split_ifs at h with hflag
    · cases h
    · exact if_neg hflag
  · rfl

theorem eraseCharges_unshift_check (name : String) (b : Ast) :
    eraseCharges (some names) (unshift (gasCheckStatement name) b) = eraseCharges (some names) b :=
  eraseCharges_unshift (eraseCharges_gasCheckStatement name)
    (isGasStatement_gasCheckStatement name) b

/-- A handler without a binding: there is nothing to destructure. -/
theorem eraseCharges_armHandler_hole {l : Label} {body : Ast} (hl : l.type = .catchClause)
    (hfree : All (Free (some names)) (eraseCharges (some names) body)) :
    eraseCharges (some names) (armHandler names (.node l [(.param, hole), (.body, body)])) =
      .node l [(.param, hole), (.body, eraseCharges (some names) body)] := by
  have harm : armHandler names (.node l [(.param, hole), (.body, body)]) =
      .node l [(.param, astIdent names.caught),
        (.body, unshift (gasCheckStatement names.caught) body)] := by
    simp [armHandler, hl, child, nodes, isHole, hole]
  rw [harm, eraseCharges_node]
  simp only [mapKids_cons, mapKids_nil, eraseCharges_ident, eraseCharges_unshift_check,
    eraseCharge, type_node, hl]
  have hnone : ∀ k ∈ (eraseCharges (some names) body).kids,
      declares .init names.caught k.2 = false :=
    fun k hk => (hfree.of_mem_kids hk).self.caught names rfl
  rw [unbind, show isNamed names.caught (child (.node l _) .param) = true by
    simp [child, nodes, isNamed, astIdent]]
  simp only [Bool.not_true, Bool.false_eq_true, if_false]
  split
  · rename_i decl rest hks
    have hfirst : child (.node l [(.param, astIdent names.caught),
        (.body, eraseCharges (some names) body)]) .body = eraseCharges (some names) body := by
      simp [child, nodes]
    rw [hfirst] at hks
    have hdecl := hnone _ (by rw [hks]; exact List.mem_cons_self)
    rw [if_neg (by simpa using hdecl)]
    simp
  · simp

/-- A handler with a pattern, which destructures what the new binding caught. -/
theorem eraseCharges_armHandler_pattern {l : Label} {param body : Ast} (hl : l.type = .catchClause)
    (hpattern : param.type ∈ [.arrayPattern, .objectPattern]) (hbody : body.type = .blockStatement)
    (hblock : (eraseCharges (some names) body).type = .blockStatement) :
    eraseCharges (some names) (armHandler names (.node l [(.param, param), (.body, body)])) =
      .node l [(.param, eraseCharges (some names) param),
        (.body, eraseCharges (some names) body)] := by
  obtain ⟨lb, kb⟩ := body
  have hlb : lb.type = .blockStatement := hbody
  have hnone : param.type ≠ .blockStatement ∧ param.type ≠ .sequenceExpression ∧
      param.type ≠ .hole ∧ param.type ≠ .identifier := by
    refine ⟨?_, ?_, ?_, ?_⟩ <;> rintro heq <;> rw [heq] at hpattern <;> simp at hpattern
  obtain ⟨hnotblock, hnotseq, hnothole, hident⟩ := hnone
  have htype : (eraseCharges (some names) param).type = param.type := by
    obtain ⟨lp, kp⟩ := param
    rw [eraseCharges_node]
    exact type_eraseCharge (a := .node lp _) hnotblock hnotseq
  have harm : armHandler names (.node l [(.param, param), (.body, .node lb kb)]) =
      .node l [(.param, astIdent names.caught), (.body, unshift
        (gasCheckStatement names.caught)
        (.node lb ((.body, letDeclaration param (astIdent names.caught)) :: kb)))] := by
    have hhole : isHole param = false := decide_eq_false hnothole
    simp [armHandler, hl, child, nodes, hident, hhole, unshift, hlb]
  have hinner : eraseCharges (some names)
      (.node lb ((.body, letDeclaration param (astIdent names.caught)) :: kb)) =
      .node lb ((.body, letDeclaration (eraseCharges (some names) param)
        (astIdent names.caught)) :: dropCharges (mapKids (eraseCharges (some names)) kb)) := by
    rw [eraseCharges_node, mapKids_cons, eraseCharges_letDeclaration, eraseCharges_ident]
    simp only [eraseCharge, type_node, hlb, label_node, kids_node, dropCharges]
    rw [List.filter_cons_of_pos rfl]
    unfold disarm
    split
    · rename_i hks
      rw [kids_node] at hks
      obtain ⟨heq, -⟩ := List.cons.inj hks
      obtain ⟨-, rfl⟩ := Prod.mk.inj heq
      refine if_neg ?_
      have hne : (eraseCharges (some names) param).type ≠ .identifier := by
        rw [htype]
        exact hident
      simp [declares, letDeclaration, variableDeclaration, child, nodes, isNamed, hne]
    · rfl
  rw [harm, eraseCharges_node]
  simp only [mapKids_cons, mapKids_nil, eraseCharges_ident, eraseCharges_unshift_check, hinner,
    eraseCharge, type_node, hl, eraseCharges_block hlb hblock]
  simp [unbind, child, nodes, isNamed, astIdent, declares, letDeclaration, variableDeclaration]

/-- **The charge and the binding of an armed handler are taken out again.** -/
theorem eraseCharges_armHandler {l : Label} {param body : Ast} (hl : l.type = .catchClause)
    (hparam : param = hole ∨ param.type ∈ [.identifier, .arrayPattern, .objectPattern])
    (hbody : body.type = .blockStatement)
    (hblock : (eraseCharges (some names) body).type = .blockStatement)
    (hfree : All (Free (some names)) (eraseCharges (some names) body))
    (hnamed : isNamed names.caught (eraseCharges (some names) param) = false) :
    eraseCharges (some names) (armHandler names (.node l [(.param, param), (.body, body)])) =
      eraseCharges (some names) (.node l [(.param, param), (.body, body)]) := by
  by_cases hident : param.type = .identifier
  · have harm : armHandler names (.node l [(.param, param), (.body, body)]) =
        update (.node l [(.param, param), (.body, body)]) .body
          (unshift (gasCheckStatement param.label.name)) := by
      simp [armHandler, hl, child, nodes, hident]
    rw [harm]
    exact eraseCharges_update fun b _ => eraseCharges_unshift_check _ b
  · have hplain : eraseCharges (some names) (.node l [(.param, param), (.body, body)]) =
        .node l [(.param, eraseCharges (some names) param),
          (.body, eraseCharges (some names) body)] := by
      rw [eraseCharges_node]
      simp [eraseCharge, hl, unbind, child, nodes, hnamed]
    rw [hplain]
    rcases hparam with rfl | hpattern
    · rw [eraseCharges_armHandler_hole hl hfree, eraseCharges_hole]
    · exact eraseCharges_armHandler_pattern hl ((List.mem_cons.1 hpattern).resolve_left hident)
        hbody hblock

theorem eraseCharges_tryStatement {block handler finalizer : Ast} {l : Label}
    (hl : l.type = .tryStatement) :
    eraseCharges (some names)
        (.node l [(.block, block), (.handler, handler), (.finalizer, finalizer)]) =
      spellTry (.node l [(.block, eraseCharges (some names) block),
        (.handler, eraseCharges (some names) handler),
        (.finalizer, eraseCharges (some names) finalizer)]) := by
  rw [eraseCharges_node]
  simp [eraseCharge, blockForm, hl]

/-- The block of an armed `try` with a finalizer gives back what it guards: the handler that records
what was thrown keeps no name. -/
theorem eraseCharges_armedBlock {finalizer : Ast} (hfinal : finalizer.type = .blockStatement)
    (guarded : Ast) :
    eraseCharges (some names) (blockStatement [letDeclaration (astIdent names.flag) hole,
        tryStatement guarded (recordHandler names)
          (unshift (gasCheckStatement names.flag) finalizer)]) =
      tryStatement (eraseCharges (some names) guarded) hole
        (eraseCharges (some names) finalizer) := by
  have hfin : isHole (eraseCharges (some names) finalizer) = false :=
    decide_eq_false (eraseCharges_ne rfl (by rw [hfinal]; decide))
  obtain ⟨recorder, hrecord, hrecorder⟩ : ∃ recorder : Ast,
      eraseCharges (some names) (recordHandler names) = recorder ∧ isHole recorder = false :=
    ⟨_, rfl, decide_eq_false (eraseCharges_ne rfl (by rintro ⟨⟩))⟩
  have hdecl : eraseCharges (some names) (letDeclaration (astIdent names.flag) hole) =
      letDeclaration (astIdent names.flag) hole := by
    rw [eraseCharges_letDeclaration, eraseCharges_ident, eraseCharges_hole]
  rw [blockStatement, listNode, eraseCharges_node]
  simp only [List.map_cons, List.map_nil, mapKids_cons, mapKids_nil, hdecl]
  rw [tryStatement, eraseCharges_tryStatement rfl, eraseCharges_unshift_check, hrecord]
  simp [spellTry, child, nodes, hfin, hrecorder, eraseCharge, dropCharges, isGasStatement,
    disarm, declares, letDeclaration, variableDeclaration, isNamed, astIdent, tryStatement,
    blockStatement, listNode]

/-- A `try` that stands alone in a block, without a finalizer. -/
theorem eraseCharges_guardedBlock (block handler : Ast) :
    eraseCharges (some names) (blockStatement [tryStatement block handler hole]) =
      blockStatement [tryStatement (eraseCharges (some names) block)
        (eraseCharges (some names) handler) hole] := by
  rw [blockStatement, listNode, eraseCharges_node]
  simp only [List.map_cons, List.map_nil, mapKids_cons, mapKids_nil]
  rw [tryStatement, eraseCharges_tryStatement rfl, eraseCharges_hole]
  simp [spellTry, child, nodes, isHole, hole, eraseCharge, dropCharges, isGasStatement,
    disarm, tryStatement, blockStatement, listNode]

/-- **An armed `try` is the `try` again.** -/
theorem eraseCharges_armTryStatement {l : Label} {block handler finalizer : Ast}
    (hl : l.type = .tryStatement) (hhandler : handler = hole ∨ handler.type = .catchClause)
    (hfinalizer : finalizer = hole ∨ finalizer.type = .blockStatement)
    (harm : eraseCharges (some names) (armHandler names handler) =
      eraseCharges (some names) handler) :
    eraseCharges (some names) (armTryStatement names
        (.node l [(.block, block), (.handler, handler), (.finalizer, finalizer)])) =
      eraseCharges (some names)
        (.node l [(.block, block), (.handler, handler), (.finalizer, finalizer)]) := by
  have hblock : eraseCharges (some names) (unshift gasCallStatement block) =
      eraseCharges (some names) block :=
    eraseCharges_unshift eraseCharges_gasCallStatement isGasStatement_gasCallStatement block
  rcases hfinalizer with rfl | hfinal
  · have heq : armTryStatement names
        (.node l [(.block, block), (.handler, handler), (.finalizer, hole)]) =
        .node l [(.block, unshift gasCallStatement block),
          (.handler, armHandler names handler), (.finalizer, hole)] := by
      simp [armTryStatement, child, nodes, isHole, hole]
    rw [heq, eraseCharges_tryStatement hl, eraseCharges_tryStatement hl, hblock, harm]
  · have hfin : isHole (eraseCharges (some names) finalizer) = false :=
      decide_eq_false (eraseCharges_ne rfl (by rw [hfinal]; decide))
    have hnone : isHole finalizer = false := by simp [isHole, hfinal]
    rw [eraseCharges_tryStatement hl]
    rcases hhandler with rfl | hc
    · have heq : armTryStatement names
          (.node l [(.block, block), (.handler, hole), (.finalizer, finalizer)]) =
          blockStatement [letDeclaration (astIdent names.flag) hole,
            tryStatement (unshift gasCallStatement block) (recordHandler names)
              (unshift (gasCheckStatement names.flag) finalizer)] := by
        have hhole : isHole hole = true := rfl
        simp [armTryStatement, child, nodes, hnone, hhole, recordHandler]
      rw [heq, eraseCharges_armedBlock hfinal, hblock, eraseCharges_hole]
      simp [spellTry, child, nodes, hfin, show isHole hole = true from rfl]
    · have hhole : isHole handler = false := by simp [isHole, hc]
      have heq : armTryStatement names
          (.node l [(.block, block), (.handler, handler), (.finalizer, finalizer)]) =
          blockStatement [letDeclaration (astIdent names.flag) hole,
            tryStatement (blockStatement [tryStatement (unshift gasCallStatement block)
                (armHandler names handler) hole]) (recordHandler names)
              (unshift (gasCheckStatement names.flag) finalizer)] := by
        simp [armTryStatement, child, nodes, hnone, hhole, recordHandler]
      have hcaught : isHole (eraseCharges (some names) handler) = false :=
        decide_eq_false (eraseCharges_ne rfl (by rw [hc]; decide))
      rw [heq, eraseCharges_armedBlock hfinal, eraseCharges_guardedBlock, hblock, harm]
      simp [spellTry, child, nodes, hfin, hcaught]

end armed

end XChainSdk
