import Mathlib.Data.List.Nodup
import XChainSdk.Contract.MeteringGuards

/-!
# The names that metering binds

* `freshName_notMem` : a fresh name is none of the names in use.
* `Tidy` : a node that uses none of the reserved names.
* `all_tidy` : all nodes of a source whose visited names are none of them are so.
* `meterCode_erases` : **without what it adds, a metered source is the source**, with its
  allocators converted and in block form.
-/

namespace XChainSdk

open Rose Ast

variable {l : Label} {ks : List (Field × Ast)}

/-! ### Fresh names -/

/-- A base with so many underscores. -/
def underscored (base : String) : ℕ → String
  | 0 => base
  | n + 1 => underscored (base ++ "_") n

theorem toList_underscored (base : String) (n : ℕ) :
    (underscored base n).toList = base.toList ++ List.replicate n '_' := by
  induction n generalizing base with
  | zero => simp [underscored]
  | succ n ih =>
    rw [underscored, ih, String.toList_append, List.append_assoc, List.replicate_succ]
    rfl

theorem underscored_injective (base : String) : Function.Injective (underscored base) := by
  intro m n h
  have hlist : base.toList ++ List.replicate m '_' = base.toList ++ List.replicate n '_' := by
    rw [← toList_underscored, ← toList_underscored, h]
  simpa using congrArg List.length hlist

/-- What the search for a fresh name comes to: the first that is free, or the last it tries. -/
theorem freshName_spec (used : List String) (base : String) (n : ℕ) :
    ∃ m ≤ n, freshName used base n = underscored base m ∧ (∀ k < m, underscored base k ∈ used) ∧
      (m < n → freshName used base n ∉ used) := by
  induction n generalizing base with
  | zero =>
    exact ⟨0, le_rfl, rfl, fun k hk => absurd hk k.not_lt_zero, fun h => absurd h (lt_irrefl 0)⟩
  | succ n ih =>
    rw [freshName]
    split_ifs with hused
    · obtain ⟨m, hm, heq, hbefore, hfree⟩ := ih (base ++ "_")
      refine ⟨m + 1, by omega, heq, fun k hk => ?_, fun hlt => hfree (by omega)⟩
      cases k with
      | zero => simpa [underscored] using hused
      | succ k => exact hbefore k (by omega)
    · exact ⟨0, by omega, rfl, fun k hk => absurd hk k.not_lt_zero,
        fun _ => by simpa using hused⟩

/-- **A fresh name is none of the names in use.** -/
theorem freshName_notMem (used : List String) (base : String) :
    freshName used base used.length ∉ used := by
  obtain ⟨m, hm, heq, hbefore, hfree⟩ := freshName_spec used base used.length
  rcases hm.lt_or_eq with hlt | rfl
  · exact hfree hlt
  · -- as many tries as there are names: one more name does not fit among them
    intro hmem
    have hall : (List.range (used.length + 1)).map (underscored base) ⊆ used := by
      intro name hname
      obtain ⟨k, hk, rfl⟩ := List.mem_map.1 hname
      rcases Nat.lt_succ_iff_lt_or_eq.1 (List.mem_range.1 hk) with hlt | rfl
      · exact hbefore k hlt
      · rwa [← heq]
    have hnodup : ((List.range (used.length + 1)).map (underscored base)).Nodup :=
      List.nodup_range.map (underscored_injective base)
    have hlength := hnodup.length_le_of_subset hall
    rw [List.length_map, List.length_range] at hlength
    omega

theorem prefix_freshName (used : List String) (base : String) (n : ℕ) :
    base.toList <+: (freshName used base n).toList := by
  obtain ⟨m, -, heq, -⟩ := freshName_spec used base n
  rw [heq, toList_underscored]
  exact List.prefix_append _ _

/-! ### Sources without reserved names -/

/-- The types of what stands in the place of a name. -/
def NodeType.isName : NodeType → Bool
  | .identifier | .literal | .other _ => true
  | _ => false

/-- The branches that no walk goes down are names. -/
def LeafNames (a : Ast) : Prop := ∀ (field : Field) (b : Ast), (field, b) ∈ a.kids →
  a.label.visits field = false → b.kids = [] ∧ b.type.isName = true

/-- An identifier of such a name. -/
def IsIdent (bad : String → Prop) (a : Ast) : Prop := a.type = .identifier ∧ bad a.label.name

/-- A node that uses no such name. -/
structure Tidy (bad : String → Prop) (a : Ast) : Prop where
  leaves : LeafNames a
  visited : ∀ (field : Field) (b : Ast), (field, b) ∈ a.kids → a.label.visits field = true →
    ¬IsIdent bad b

section Tidy

variable {bad : String → Prop}

theorem tidy_leaf : Tidy bad (.node l []) :=
  ⟨fun _ _ hb => absurd hb List.not_mem_nil, fun _ _ hb => absurd hb List.not_mem_nil⟩

theorem visitedNames_node : visitedNames (.node l ks) = visitedKids l ks ++
    if l.type = .identifier then [l.name] else [] := by
  rw [visitedNames]

theorem visitedNames_subset {field : Field} {b : Ast} (hb : (field, b) ∈ ks)
    (hv : l.visits field = true) : visitedNames b ⊆ visitedNames (.node l ks) := by
  rw [visitedNames_node]
  refine fun name hname => List.mem_append_left _ ?_
  induction ks with
  | nil => cases hb
  | cons k ks ih =>
    rw [visitedKids]
    rcases List.mem_cons.1 hb with rfl | hb
    · refine List.mem_append_left _ ?_
      rwa [visitedKid, if_pos hv]
    · exact List.mem_append_right _ (ih hb)

/-- **A source is tidy where none of the names a walk comes to is reserved.** -/
theorem all_tidy {a : Ast} (hleaf : All LeafNames a) (h : ∀ name ∈ visitedNames a, ¬bad name) :
    All (Tidy bad) a ∧ ¬IsIdent bad a := by
  induction a using ind with
  | step l ks ih =>
    have hident : ¬IsIdent bad (.node l ks) := by
      rintro ⟨ht, hbad⟩
      rw [type_node] at ht
      refine h l.name ?_ hbad
      rw [visitedNames_node, if_pos ht]
      exact List.mem_append_right _ List.mem_cons_self
    have hkid : ∀ (field : Field) (b : Ast), (field, b) ∈ ks → l.visits field = true →
        All (Tidy bad) b ∧ ¬IsIdent bad b := fun field b hb hv =>
      ih _ hb (hleaf.kid hb) fun name hname => h name (visitedNames_subset hb hv hname)
    refine ⟨all_node.2 ⟨⟨hleaf.self, fun field b hb hv => (hkid field b hb hv).2⟩, fun k hk => ?_⟩,
      hident⟩
    obtain ⟨field, b⟩ := k
    by_cases hv : l.visits field = true
    · exact (hkid field b hk hv).1
    · obtain ⟨hnone, -⟩ := hleaf.self field b hk (by simpa using hv)
      obtain ⟨lb, kb⟩ := b
      obtain rfl : kb = [] := hnone
      exact all_node.2 ⟨tidy_leaf, List.forall_mem_nil _⟩

/-- What stands in a field of a tidy node is none of the names. -/
theorem Tidy.child {a : Ast} (h : Tidy bad a) {field : Field} (hv : a.label.visits field = true) :
    ¬IsIdent bad (a.child field) := by
  obtain ⟨l, ks⟩ := a
  rcases child_mem l ks field with hmem | hnone
  · exact h.visited field _ hmem hv
  · rw [hnone]
    rintro ⟨⟨⟩, -⟩

theorem visits_of_type {l : Label} {t : NodeType} (ht : l.type = t) {field : Field}
    (hlabel : field ≠ .label)
    (h : t ∉ [.memberExpression, .property, .methodDefinition, .metaProperty]) :
    l.visits field = true := by
  subst ht
  unfold Label.visits
  split
  all_goals first | rfl | simp_all

/-! ### Allocators without reserved names -/

/-- The types that a grammar says more about. -/
def NodeType.ruled : List NodeType :=
  [.tryStatement, .catchClause, .conditionalExpression, .binaryExpression, .forStatement,
    .arrowFunctionExpression, .assignmentExpression, .taggedTemplateExpression, .whileStatement,
    .doWhileStatement, .forInStatement, .forOfStatement, .ifStatement, .functionDeclaration,
    .functionExpression]

theorem grammatical_of_type {a : Ast} (h : a.type ∉ NodeType.ruled) : Grammatical a := by
  have hne : ∀ {t : NodeType}, t ∈ NodeType.ruled → a.type ≠ t := by
    rintro t ht rfl
    exact h ht
  refine ⟨fun ht => absurd ht (hne (by decide)), fun ht => absurd ht (hne (by decide)),
    fun ht => absurd ht (hne (by decide)), fun ht => absurd ht (hne (by decide)),
    fun ht => absurd ht (hne (by decide)), fun ht => absurd ht (hne (by decide)),
    fun ht => absurd ht (hne (by decide)), fun ht => absurd ht (hne (by decide)),
    fun ht => ?_, fun ht => absurd ht (hne (by decide)), fun ht => ?_⟩
  all_goals
    refine absurd ?_ h
    simp only [List.mem_cons, List.not_mem_nil, or_false] at ht
    simp only [NodeType.ruled, List.mem_cons, List.not_mem_nil, or_false]
    grind

/-- A tree of a parser that uses none of the names. -/
structure Good (bad : String → Prop) (a : Ast) : Prop where
  all : All (fun s => Tidy bad s ∧ Grammatical s) a
  ident : ¬IsIdent bad a

theorem not_isIdent_of_type {a : Ast} (h : a.type ≠ .identifier) : ¬IsIdent bad a :=
  fun hident => h hident.1

theorem good_node (hgram : Grammatical (.node l ks)) (hident : l.type ≠ .identifier)
    (h : ∀ k ∈ ks, l.visits k.1 = true ∧ Good bad k.2) : Good bad (.node l ks) := by
  refine ⟨all_node.2 ⟨⟨⟨fun field b hb hv => ?_, fun field b hb _ => (h _ hb).2.ident⟩, hgram⟩,
    fun k hk => (h k hk).2.all⟩, not_isIdent_of_type hident⟩
  rw [label_node, (h _ hb).1] at hv
  cases hv

theorem good_leaf {l : Label} (hgram : Grammatical (.node l [])) (hident : l.type ≠ .identifier) :
    Good bad (.node l []) := good_node hgram hident (List.forall_mem_nil _)

theorem good_hole : Good bad hole := good_leaf (grammatical_of_type (by decide)) (by decide)

theorem good_literal (v : LiteralValue) : Good bad (astLiteral v) :=
  good_leaf (grammatical_of_type (by simp [NodeType.ruled])) (by simp)

theorem Good.part {a : Ast} (h : Good bad a) {field : Field} (hv : a.label.visits field = true)
    {b : Ast} (hb : (field, b) ∈ a.kids) : Good bad b :=
  ⟨h.all.of_mem_kids hb, h.all.self.1.visited field b hb hv⟩

theorem Good.nodes {a : Ast} (h : Good bad a) {field : Field} (hv : a.label.visits field = true) :
    ∀ b ∈ a.nodes field, Good bad b := fun _ hb => h.part hv (mem_nodes.1 hb)

theorem Good.child {a : Ast} (h : Good bad a) {field : Field} (hv : a.label.visits field = true) :
    Good bad (a.child field) := by
  obtain ⟨l, ks⟩ := a
  rcases child_mem l ks field with hmem | hnone
  · exact h.part hv hmem
  · rw [hnone]
    exact good_hole

theorem good_listNode {type : NodeType} {field : Field} {nodes : List Ast}
    (ht : type = .arrayExpression ∨ type = .spreadElement) (hfield : field ≠ .label)
    (h : ∀ b ∈ nodes, Good bad b) : Good bad (listNode type field nodes) := by
  refine good_node (grammatical_of_type ?_) ?_ fun k hk => ?_
  · rcases ht with rfl | rfl <;> simp [NodeType.ruled]
  · rcases ht with rfl | rfl <;> simp
  · obtain ⟨b, hb, rfl⟩ := List.mem_map.1 hk
    refine ⟨visits_of_type rfl hfield ?_, h b hb⟩
    rcases ht with rfl | rfl <;> simp

theorem good_astArray {elements : List Ast} (h : ∀ b ∈ elements, Good bad b) :
    Good bad (astArray elements) := good_listNode (.inl rfl) (by decide) h

theorem good_segment {tag : String} {parts : List Ast} (h : ∀ b ∈ parts, Good bad b) :
    Good bad (segment tag parts) := by
  refine good_astArray fun b hb => ?_
  rcases List.mem_cons.1 hb with rfl | hb
  · exact good_literal _
  · exact h b hb

theorem good_void0 : Good bad astVoid0 := by
  refine good_node (grammatical_of_type (by simp [NodeType.ruled])) (by simp) fun k hk => ?_
  rw [List.mem_singleton.1 hk]
  exact ⟨rfl, good_literal _⟩

theorem good_memberKeyExpr {a : Ast} (h : Good bad a) (ht : a.type = .memberExpression) :
    Good bad (memberKeyExpr a) := by
  rw [memberKeyExpr]
  split_ifs with hcomputed
  · refine h.child ?_
    rw [Ast.type] at ht
    simp [Label.visits, ht, hcomputed]
  · rw [keyLiteral]
    split_ifs <;> exact good_literal _

/-- A closure of a part that is evaluated later. -/
theorem good_arrowThunk {e : Ast} (h : Good bad e) (ho : e.type.isOperand = true) :
    Good bad (arrowThunk e) := by
  have hgram : Grammatical (arrowThunk e) := by
    constructor
    case arrows =>
      intro _ b hb
      simp only [arrowThunk, kids_node, List.mem_cons, List.not_mem_nil, or_false, Prod.mk.injEq,
        reduceCtorEq, false_and, true_and, false_or] at hb
      rw [hb]
      exact .inr ho
    all_goals simp [arrowThunk]
  refine good_node hgram (by simp) fun k hk => ?_
  simp only [List.mem_cons, List.not_mem_nil, or_false] at hk
  rcases hk with rfl | rfl
  · exact ⟨rfl, good_hole⟩
  · exact ⟨rfl, h⟩

section Helpers

variable (hbad : ∀ name ∈ ALLOC_HELPERS, ¬bad name)

include hbad

theorem good_astCall {name : String} (hname : name ∈ ALLOC_HELPERS) {args : List Ast}
    (h : ∀ b ∈ args, Good bad b) : Good bad (astCall name args) := by
  refine good_node (grammatical_of_type (by simp [NodeType.ruled])) (by simp) fun k hk => ?_
  rcases List.mem_cons.1 hk with rfl | hk
  · have hgram := grammatical_of_type (a := astIdent name) (by simp [astIdent, NodeType.ruled])
    refine ⟨rfl, all_node.2 ⟨⟨tidy_leaf, hgram⟩, List.forall_mem_nil _⟩, ?_⟩
    exact fun hident => hbad name hname hident.2
  · obtain ⟨b, hb, rfl⟩ := List.mem_map.1 hk
    exact ⟨rfl, h b hb⟩

theorem good_meterRestSource {pat src : Ast} (h : Good bad src) :
    Good bad (meterRestSource pat src) := by
  rw [meterRestSource]
  split
  · exact good_astCall hbad (by decide) (by simpa using h)
  · exact good_astCall hbad (by decide) (by
      simpa using good_astArray (by simpa using good_segment (by simpa using h)))
  · exact h

/-- What a conversion gives: a tree without the names, for one that is not told apart. -/
structure Converts (bad : String → Prop) (a b : Ast) : Prop where
  good : Good bad b
  before : a.type.category = none
  after : b.type.category = none

omit hbad in
theorem Converts.sameKind {a b : Ast} (h : Converts bad a b) : SameKind a b where
  hole heq := by
    have hbefore := h.before
    rw [heq] at hbefore
    cases hbefore
  category _ := h.after.trans h.before.symm
  attempt ht := by
    have hbefore := h.before
    rw [ht] at hbefore
    cases hbefore

theorem converts_concat {specEvalOrder : Bool} {a b : Ast} (h : Good bad a)
    (hb : convertConcat specEvalOrder a = some b) : Converts bad a b := by
  have hside : ∀ {field : Field}, field ≠ .label → a.type ∈ [.binaryExpression,
      .assignmentExpression] → Good bad (a.child field) := fun hfield ht =>
    h.child (visits_of_type rfl hfield (by
      rw [Ast.type] at ht
      simp only [List.mem_cons, List.not_mem_nil, or_false] at ht
      rcases ht with ht | ht <;> simp [ht]))
  rw [convertConcat] at hb
  split_ifs at hb with hplus hassign hident hmember horder
  · obtain rfl := Option.some.inj hb
    have ht : a.type ∈ [.binaryExpression, .assignmentExpression] := by simp [hplus.1]
    refine ⟨good_astCall hbad (by decide) fun b hb => ?_, by rw [hplus.1]; rfl, rfl⟩
    simp only [List.mem_cons, List.not_mem_nil, or_false] at hb
    rcases hb with rfl | rfl
    exacts [hside (by decide) ht, hside (by decide) ht]
  all_goals
    obtain rfl := Option.some.inj hb
    have htype : a.type = .assignmentExpression := by
      simp only [not_or, ne_eq, not_not] at hassign
      exact hassign.1
    have ht : a.type ∈ [.binaryExpression, .assignmentExpression] := by simp [htype]
    have hleft : Good bad (a.child .left) := hside (by decide) ht
    have hright : Good bad (a.child .right) := hside (by decide) ht
    have hoperand := h.all.self.2.rights htype
  · have hcall : Good bad (astCall "__concat" [a.child .left, a.child .right]) := by
      refine good_astCall hbad (by decide) fun b hb => ?_
      simp only [List.mem_cons, List.not_mem_nil, or_false] at hb
      rcases hb with rfl | rfl
      exacts [hleft, hright]
    refine ⟨good_node ?_ (by simp) fun k hk => ?_, by rw [htype]; rfl, rfl⟩
    · constructor
      case rights => exact fun _ => rfl
      all_goals simp
    · simp only [List.mem_cons, List.not_mem_nil, or_false] at hk
      rcases hk with rfl | rfl
      exacts [⟨rfl, hleft⟩, ⟨rfl, hcall⟩]
  · -- the right side is evaluated after the object and the key
    refine ⟨good_astCall hbad (by decide) fun b hb => ?_, by rw [htype]; rfl, rfl⟩
    simp only [List.mem_cons, List.not_mem_nil, or_false] at hb
    rcases hb with rfl | rfl | rfl
    · exact hleft.child (by rw [Ast.type] at hmember; simp [Label.visits, hmember])
    · exact good_memberKeyExpr hleft hmember
    · exact good_arrowThunk hright hoperand
  · refine ⟨good_astCall hbad (by decide) fun b hb => ?_, by rw [htype]; rfl, rfl⟩
    simp only [List.mem_cons, List.not_mem_nil, or_false] at hb
    rcases hb with rfl | rfl | rfl
    · exact hleft.child (by rw [Ast.type] at hmember; simp [Label.visits, hmember])
    · exact good_memberKeyExpr hleft hmember
    · exact hright

theorem converts_taggedTemplate {a b : Ast} (h : Good bad a)
    (hb : convertTaggedTemplate a = some b) : Converts bad a b := by
  rw [convertTaggedTemplate] at hb
  split_ifs at hb with hne
  obtain rfl := Option.some.inj hb
  have htype : a.type = .taggedTemplateExpression := not_not.1 hne
  have hvisits : ∀ field, field ≠ Field.label → a.label.visits field = true :=
    fun field hfield => visits_of_type htype hfield (by decide)
  have htag : Good bad (a.child .tag) := h.child (hvisits _ (by decide))
  have hquasi : Good bad (a.child .quasi) := h.child (hvisits _ (by decide))
  -- the cooked and the raw texts of the quasis
  have htexts {f : Ast → Ast} {qs : List Ast} (hf : ∀ q, Good bad (f q)) :
      Good bad (astArray (qs.map f)) := by
    refine good_astArray fun b hb => ?_
    obtain ⟨q, -, rfl⟩ := List.mem_map.1 hb
    exact hf q
  have hexprs : Good bad (astArray ((a.child .quasi).nodes .expressions)) := by
    refine good_astArray (hquasi.nodes ?_)
    obtain ⟨-, hmeta⟩ := h.all.self.2.templates htype
    unfold Label.visits
    split <;> simp_all [Ast.type]
  split_ifs with hmember
  · refine ⟨good_astCall hbad (by decide) fun b hb => ?_, by rw [htype]; rfl, rfl⟩
    simp only [List.mem_cons, List.not_mem_nil, or_false] at hb
    rcases hb with rfl | rfl | rfl | rfl | rfl
    · exact htag.child (by rw [Ast.type] at hmember; simp [Label.visits, hmember])
    · exact good_memberKeyExpr htag hmember
    · exact htexts fun q => by split; exacts [good_void0, good_literal _]
    · exact htexts fun q => good_literal _
    · exact hexprs
  · refine ⟨good_astCall hbad (by decide) fun b hb => ?_, by rw [htype]; rfl, rfl⟩
    simp only [List.mem_cons, List.not_mem_nil, or_false] at hb
    rcases hb with rfl | rfl | rfl | rfl
    · exact htag
    · exact htexts fun q => by split; exacts [good_void0, good_literal _]
    · exact htexts fun q => good_literal _
    · exact hexprs

omit hbad in
theorem good_templateParts {qs es : List Ast} (h : ∀ e ∈ es, Good bad e) :
    ∀ b ∈ templateParts qs es, Good bad b := by
  induction qs generalizing es with
  | nil => exact List.forall_mem_nil _
  | cons q qs ih =>
    intro b hb
    rcases List.mem_cons.1 hb with rfl | hb
    · exact good_literal _
    · cases es with
      | nil => exact ih h b hb
      | cons e es =>
        rcases List.mem_cons.1 hb with rfl | hb
        · exact h _ List.mem_cons_self
        · exact ih (fun e he => h e (List.mem_cons_of_mem _ he)) b hb

theorem converts_templateLiteral {tagged : Bool} {a b : Ast} (h : Good bad a)
    (hb : convertTemplateLiteral tagged a = some b) : Converts bad a b := by
  rw [convertTemplateLiteral] at hb
  split_ifs at hb with hne
  obtain rfl := Option.some.inj hb
  have htype : a.type = .templateLiteral := not_not.1 (not_or.1 hne).1
  refine ⟨good_astCall hbad (by decide) fun b hb => ?_, by rw [htype]; rfl, rfl⟩
  rw [List.mem_singleton.1 hb]
  exact good_astArray (good_templateParts (h.nodes (visits_of_type htype (by decide) (by decide))))

omit hbad in
/-- What an element spreads. -/
theorem good_argument {e : Ast} (h : Good bad e) (he : isSpread e = true) :
    Good bad (e.child .argument) :=
  h.child (visits_of_type (of_decide_eq_true he) (by decide) (by decide))

theorem converts_arraySpread {a b : Ast} (h : Good bad a)
    (hb : convertArraySpread a = some b) : Converts bad a b := by
  rw [convertArraySpread] at hb
  split_ifs at hb with hne
  obtain rfl := Option.some.inj hb
  have htype : a.type = .arrayExpression := not_not.1 (not_or.1 hne).1
  have helements : ∀ b ∈ a.nodes .elements, Good bad b :=
    h.nodes (visits_of_type htype (by decide) (by decide))
  refine ⟨good_astCall hbad (by decide) fun b hb => ?_, by rw [htype]; rfl, rfl⟩
  rw [List.mem_singleton.1 hb]
  refine good_astArray fun c hc => ?_
  obtain ⟨e, he, rfl⟩ := List.mem_map.1 hc
  split_ifs with hhole hspread
  · exact good_segment (List.forall_mem_nil _)
  · exact good_segment (by simpa using good_argument (helements e he) hspread)
  · exact good_segment (by simpa using helements e he)

omit hbad in
/-- A node with other branches in some places. -/
theorem good_replace {a : Ast} {ks' : List (Field × Ast)} (h : Good bad a)
    (hgram : Grammatical (.node a.label ks'))
    (hks : ∀ k ∈ ks', k ∈ a.kids ∨ a.label.visits k.1 = true ∧ Good bad k.2) :
    Good bad (.node a.label ks') := by
  refine ⟨all_node.2 ⟨⟨⟨fun place b hb hv => ?_, fun place b hb hv => ?_⟩, hgram⟩, fun k hk => ?_⟩,
    h.ident⟩
  · rcases hks _ hb with hmem | ⟨hvisits, -⟩
    · exact h.all.self.1.leaves place b hmem hv
    · rw [label_node, hvisits] at hv
      cases hv
  · rcases hks _ hb with hmem | ⟨-, hgood⟩
    · exact h.all.self.1.visited place b hmem hv
    · exact hgood.ident
  · rcases hks k hk with hmem | ⟨-, hgood⟩
    · exact h.all.of_mem_kids hmem
    · exact hgood.all

omit hbad in
theorem good_update {a : Ast} {field : Field} {f : Ast → Ast} (h : Good bad a)
    (hgram : Grammatical (a.update field f)) (hv : a.label.visits field = true)
    (hf : ∀ b, (field, b) ∈ a.kids → Good bad b → Good bad (f b)) :
    Good bad (a.update field f) := by
  refine good_replace h hgram fun k hk => ?_
  rcases mem_updateKids hk with hmem | ⟨c, hc, rfl⟩
  · exact .inl hmem
  · exact .inr ⟨hv, hf c hc (h.part hv hc)⟩

theorem converts_objectSpread {a b : Ast} (h : Good bad a)
    (hb : convertObjectSpread a = some b) : Converts bad a b := by
  rw [convertObjectSpread] at hb
  dsimp only at hb
  split_ifs at hb with hne hplain
  all_goals
    obtain rfl := Option.some.inj hb
    have htype : a.type = .objectExpression := not_not.1 (not_or.1 hne).1
    have hvisits : a.label.visits .properties = true :=
      visits_of_type htype (by decide) (by decide)
  · -- with an accessor or a method the object stays, and its spreads are metered
    refine ⟨good_update h (grammatical_of_type (by rw [type_update, htype]; decide)) hvisits
      fun (p : Ast) _ hp => ?_, by rw [htype]; rfl, by rw [type_update, htype]; rfl⟩
    split_ifs with hspread
    · have hp_type : p.type = .spreadElement := of_decide_eq_true hspread
      refine good_update hp (grammatical_of_type (by rw [type_update, hp_type]; decide))
        (visits_of_type hp_type (by decide) (by decide)) fun e _ he => ?_
      exact good_astCall hbad (by decide) (by simpa using he)
    · exact hp
  · refine ⟨good_astCall hbad (by decide) fun b hb => ?_, by rw [htype]; rfl, rfl⟩
    rw [List.mem_singleton.1 hb]
    refine good_astArray fun c hc => ?_
    obtain ⟨p, hp, rfl⟩ := List.mem_map.1 hc
    have hgood := h.nodes hvisits p hp
    by_cases hspread : isSpread p = true
    · rw [if_pos hspread]
      exact good_segment (by simpa using good_argument hgood hspread)
    · rw [if_neg hspread]
      have hproperty : p.type = .property := by
        simp only [Bool.not_eq_true', Bool.not_eq_false, List.all_eq_true] at hplain
        have hmember := hplain p hp
        simp only [isPlainMember, hspread, Bool.false_or, Bool.and_eq_true,
          decide_eq_true_eq] at hmember
        exact hmember.1.1
      rw [Ast.type] at hproperty
      have hkey : Good bad (if p.label.computed then p.child .key
          else keyLiteral (p.child .key)) := by
        by_cases hcomputed : p.label.computed = true
        · rw [if_pos hcomputed]
          exact hgood.child (by simp [Label.visits, hproperty, hcomputed])
        · rw [if_neg hcomputed, keyLiteral]
          split_ifs <;> exact good_literal _
      have hvalue : Good bad (p.child .value) :=
        hgood.child (by simp [Label.visits, hproperty])
      refine good_segment fun c hc => ?_
      rw [List.mem_singleton.1 hc]
      refine good_astArray fun d hd => ?_
      simp only [List.mem_cons, List.not_mem_nil, or_false] at hd
      rcases hd with rfl | rfl
      exacts [hkey, hvalue]

theorem converts_callSpread {opts : AllocatorOptions} {chainDepth sites : ℕ} {a : Ast}
    {r : Ast × ℕ} (h : Good bad a) (hr : convertCallSpread opts chainDepth a sites = some r) :
    Converts bad a r.1 := by
  rw [convertCallSpread] at hr
  dsimp only at hr
  by_cases hne : (!opts.meterCallSpread) = true ∨ (a.type ≠ .callExpression ∧
      a.type ≠ .newExpression) ∨ (!(a.nodes .arguments).any isSpread) = true
  · rw [if_pos hne] at hr
    cases hr
  · rw [if_neg hne] at hr
    have htype : a.type = .callExpression ∨ a.type = .newExpression := by
      by_contra hnone
      exact hne (.inr (.inl (not_or.1 hnone)))
    have hgram : ∀ ks', Grammatical (.node a.label ks') := fun ks' =>
      grammatical_of_type (a := .node a.label ks') (by
        rw [type_node, ← Ast.type]
        rcases htype with ht | ht <;> rw [ht] <;> decide)
    have hvisits : a.label.visits .arguments = true := by
      rcases htype with ht | ht <;> exact visits_of_type ht (by decide) (by decide)
    have hbefore : a.type.category = none := by rcases htype with ht | ht <;> rw [ht] <;> rfl
    have hsegs : Good bad (astArray ((a.nodes .arguments).map fun e =>
        if isSpread e then segment "s" [e.child .argument] else segment "e" [e])) := by
      refine good_astArray fun b hb => ?_
      obtain ⟨e, he, rfl⟩ := List.mem_map.1 hb
      have hgood := h.nodes hvisits e he
      split_ifs with hspread
      · exact good_segment (by simpa using good_argument hgood hspread)
      · exact good_segment (by simpa using hgood)
    have hspreading : ∀ list : List Ast, (∀ b ∈ list, Good bad b) →
        Good bad (.node a.label (a.kids.filter (·.1 ≠ .arguments) ++
          [(.arguments, .node { type := .spreadElement }
            [(.argument, astCall "__arrspread" list)])])) := by
      refine fun list hlist => good_replace h (hgram _) fun k hk => ?_
      rcases List.mem_append.1 hk with hk | hk
      · exact .inl (List.mem_filter.1 hk).1
      · rw [List.mem_singleton.1 hk]
        have hspread : Good bad (listNode .spreadElement .argument [astCall "__arrspread" list]) :=
          good_listNode (.inr rfl) (by decide) (by simpa using good_astCall hbad (by decide) hlist)
        exact .inr ⟨hvisits, hspread⟩
    have hheld : Good bad (.node a.label (a.kids.filter (·.1 ≠ .arguments) ++
        [(.arguments, .node { type := .spreadElement } [(.argument, astCall "__arrspread"
          [astArray ((a.nodes .arguments).map fun e =>
            if isSpread e then segment "s" [e.child .argument] else segment "e" [e]),
            astLiteral (.num 1), astLiteral (.num sites)])])])) := hspreading _ fun b hb => by
      simp only [List.mem_cons, List.not_mem_nil, or_false] at hb
      rcases hb with rfl | rfl | rfl
      exacts [hsegs, good_literal _, good_literal _]
    split_ifs at hr with hhold hchain
    · obtain rfl := Option.some.inj hr
      exact ⟨hspreading _ (by simpa using hsegs), hbefore, hbefore⟩
    · obtain rfl := Option.some.inj hr
      exact ⟨hheld, hbefore, hbefore⟩
    · obtain rfl := Option.some.inj hr
      refine ⟨good_astCall hbad (by decide) fun b hb => ?_, hbefore, rfl⟩
      simp only [List.mem_cons, List.not_mem_nil, or_false] at hb
      rcases hb with rfl | rfl | rfl
      exacts [hheld, good_literal _, good_literal _]

omit hbad in
theorem isOperand_meterRestSource {pat src : Ast} (h : src.type.isOperand = true) :
    (meterRestSource pat src).type.isOperand = true := by
  rw [meterRestSource]
  split
  · rfl
  · rfl
  · exact h

theorem converts_restPattern {meterRestPattern : Bool} {a b : Ast} (h : Good bad a)
    (hb : convertRestPattern meterRestPattern a = some b) : Converts bad a b := by
  rw [convertRestPattern] at hb
  split_ifs at hb with hoff hdecl hassign
  · obtain rfl := Option.some.inj hb
    refine ⟨good_update h (grammatical_of_type (by rw [type_update, hdecl.1]; decide))
      (visits_of_type hdecl.1 (by decide) (by decide)) fun _ _ => good_meterRestSource hbad,
      by rw [hdecl.1]; rfl, by rw [type_update, hdecl.1]; rfl⟩
  · obtain rfl := Option.some.inj hb
    have htype := hassign.1
    have hoperand := h.all.self.2.rights htype
    have hgram : Grammatical (a.update .right (meterRestSource (a.child .left))) := by
      have hnot : ∀ t, t ≠ .assignmentExpression →
          (a.update .right (meterRestSource (a.child .left))).type ≠ t := by
        rintro t ht rfl
        exact ht htype
      refine ⟨fun ht => absurd ht (hnot _ (by decide)), fun ht => absurd ht (hnot _ (by decide)),
        fun ht => absurd ht (hnot _ (by decide)), fun ht => absurd ht (hnot _ (by decide)),
        fun ht => absurd ht (hnot _ (by decide)), fun ht => absurd ht (hnot _ (by decide)),
        fun _ => ?_, fun ht => absurd ht (hnot _ (by decide)),
        fun ht => absurd ht (by simp [htype]), fun ht => absurd ht (hnot _ (by decide)),
        fun ht => absurd ht (by simp [htype])⟩
      rcases child_update_self .right (meterRestSource (a.child .left)) a with
        heq | ⟨-, hhole⟩
      · rw [heq]
        exact isOperand_meterRestSource hoperand
      · rw [hhole] at hoperand
        cases hoperand
    exact ⟨good_update h hgram (visits_of_type htype (by decide) (by decide)) fun _ _ =>
      good_meterRestSource hbad, by rw [htype]; rfl, by rw [type_update, htype]; rfl⟩

/-- **A converted node uses none of the names.** -/
theorem good_convert (opts : AllocatorOptions) (chainDepth : ℕ) (tagged : Bool) {a : Ast}
    (sites : ℕ) (h : Good bad a) : Good bad (convert opts chainDepth tagged a sites).1 ∧
      SameKind a (convert opts chainDepth tagged a sites).1 := by
  have hdone : ∀ {b : Ast}, Converts bad a b → Good bad b ∧ SameKind a b :=
    fun hb => ⟨hb.good, hb.sameKind⟩
  rw [convert]
  split
  · rename_i b heq
    simp only [Option.or_eq_some_iff] at heq
    rcases heq with ((((hb | ⟨-, hb⟩) | ⟨-, hb⟩) | ⟨-, hb⟩) | ⟨-, hb⟩)
    · exact hdone (converts_concat hbad h hb)
    · exact hdone (converts_taggedTemplate hbad h hb)
    · exact hdone (converts_templateLiteral hbad h hb)
    · exact hdone (converts_arraySpread hbad h hb)
    · exact hdone (converts_objectSpread hbad h hb)
  · split
    · rename_i hr
      exact hdone (converts_callSpread hbad h hr)
    · cases hrest : convertRestPattern opts.meterRestPattern a with
      | none => exact ⟨h, .refl a⟩
      | some b => exact hdone (converts_restPattern hbad h hrest)

omit hbad in
theorem recur_name (opts : AllocatorOptions) (chainDepth : ℕ) (tagged : Bool) (sites : ℕ) {a : Ast}
    (hkids : a.kids = []) (ht : a.type.isName = true) :
    recur opts chainDepth tagged sites a = (a, sites) := by
  obtain ⟨l, ks⟩ := a
  obtain rfl : ks = [] := hkids
  rw [type_node] at ht
  have hnot : ∀ {t : NodeType}, t.isName = false → l.type ≠ t := by
    rintro t hname rfl
    rw [hname] at ht
    cases ht
  have hassign := hnot (t := .assignmentExpression) rfl
  rw [recur, recurKids]
  simp [convert, convertConcat, convertTaggedTemplate, convertTemplateLiteral, convertArraySpread,
    convertObjectSpread, convertCallSpread, convertRestPattern, hassign,
    hnot (t := .binaryExpression) rfl, hnot (t := .taggedTemplateExpression) rfl,
    hnot (t := .templateLiteral) rfl, hnot (t := .arrayExpression) rfl,
    hnot (t := .objectExpression) rfl, hnot (t := .callExpression) rfl,
    hnot (t := .newExpression) rfl, hnot (t := .variableDeclarator) rfl]

omit hbad in
/-- The branches of a node after the pass, by what the pass does to each. -/
theorem recurKids_spec (bad : String → Prop) (opts : AllocatorOptions) (l : Label) (chainDepth : ℕ)
    (h : ∀ k ∈ ks, (∀ chainDepth tagged sites,
        l.visits k.1 = true ∧ Good bad (recur opts chainDepth tagged sites k.2).1 ∧
          SameKind k.2 (recur opts chainDepth tagged sites k.2).1) ∨
      k.2.kids = [] ∧ (Ast.type k.2).isName = true) (sites : ℕ) :
    SameKinds ks (recurKids opts l chainDepth sites ks).1 ∧
      ∀ k ∈ (recurKids opts l chainDepth sites ks).1, k ∈ ks ∨
        l.visits k.1 = true ∧ Good bad k.2 := by
  induction ks generalizing sites with
  | nil => exact ⟨.nil, List.forall_mem_nil _⟩
  | cons k ks ih =>
    obtain ⟨field, b⟩ := k
    rw [recurKids]
    obtain ⟨hkept, hmem⟩ := ih (fun k hk => h k (List.mem_cons_of_mem _ hk))
      (recurKid opts l chainDepth sites (field, b)).2
    rw [recurKid] at hkept hmem ⊢
    dsimp only at hkept hmem ⊢
    have htail : ∀ k ∈ (recurKids opts l chainDepth (recur opts chainDepth
        (l.type = .taggedTemplateExpression && field = .quasi) sites b).2 ks).1,
        k ∈ (field, b) :: ks ∨ l.visits k.1 = true ∧ Good bad k.2 :=
      fun k hk => (hmem k hk).imp_left (List.mem_cons_of_mem _)
    rcases h _ List.mem_cons_self with hgood | ⟨hnone, hname⟩
    · obtain ⟨hv, hb, hk⟩ := hgood chainDepth
        (l.type = .taggedTemplateExpression && field = .quasi) sites
      refine ⟨.cons ⟨rfl, hk⟩ hkept, fun k hk => ?_⟩
      rcases List.mem_cons.1 hk with rfl | hk
      · exact .inr ⟨hv, hb⟩
      · exact htail k hk
    · have heq := recur_name opts chainDepth
        (l.type = .taggedTemplateExpression && field = .quasi) sites hnone hname
      rw [heq] at hkept htail ⊢
      refine ⟨.cons ⟨rfl, .refl b⟩ hkept, fun k hk => ?_⟩
      rcases List.mem_cons.1 hk with rfl | hk
      · exact .inl List.mem_cons_self
      · exact htail k hk

/-- **Metered allocators use none of the names that the source does not use.** -/
theorem good_recur (opts : AllocatorOptions) (a : Ast) : ∀ (chainDepth : ℕ) (tagged : Bool)
    (sites : ℕ), Good bad a → Good bad (recur opts chainDepth tagged sites a).1 ∧
      SameKind a (recur opts chainDepth tagged sites a).1 := by
  induction a using ind with
  | step l ks ih =>
    intro chainDepth tagged sites h
    rw [recur]
    obtain ⟨hkept, hmem⟩ := recurKids_spec bad opts l
      (if l.type = .chainExpression then chainDepth + 1 else chainDepth) (fun k hk => by
        by_cases hv : l.visits k.1 = true
        · exact .inl fun chainDepth tagged sites =>
            ⟨hv, ih k hk chainDepth tagged sites (h.part (a := .node l ks) hv hk)⟩
        · exact .inr (h.all.self.1.leaves k.1 k.2 hk (by simpa using hv))) sites
    have hnode : Good bad (.node l (recurKids opts l
        (if l.type = .chainExpression then chainDepth + 1 else chainDepth) sites ks).1) :=
      good_replace (a := .node l ks) h (h.all.self.2.of_sameKinds hkept) hmem
    obtain ⟨hgood, hstep⟩ := good_convert hbad opts chainDepth tagged
      (recurKids opts l (if l.type = .chainExpression then chainDepth + 1 else chainDepth)
        sites ks).2 hnode
    refine ⟨hgood, fun heq => ?_, fun hne => ?_, fun ht => ?_⟩
    · cases heq
      exact hstep.hole rfl
    · exact hstep.category hne
    · exact hstep.attempt ht

end Helpers

end Tidy

/-! ### Metering -/

/-- The names that metering must not find in a source. -/
def Reserved (armed : Option ArmedNames) (name : String) : Prop :=
  name = "__gas" ∨ name ∈ DEPTH_HELPERS ∨ ∃ names ∈ armed, name = names.caught ∨ name = names.flag

theorem not_reserved_helper {used : List String} (names : ArmedNames) (hcaught : names.caught =
      freshName used "__gasx" used.length) (hflag : names.flag =
      freshName used "__gasf" used.length) {armed : Option ArmedNames}
    (harmed : ∀ names' ∈ armed, names' = names) : ∀ name ∈ ALLOC_HELPERS, ¬Reserved armed name := by
  have hother : ∀ name ∈ ALLOC_HELPERS, name ≠ "__gas" ∧ name ∉ DEPTH_HELPERS ∧
      ¬"__gasx".toList <+: name.toList ∧ ¬"__gasf".toList <+: name.toList := by decide
  intro name hname hreserved
  obtain ⟨hgas, hdepth, hx, hf⟩ := hother name hname
  rcases hreserved with rfl | hmem | ⟨names', hn, rfl | rfl⟩
  · exact hgas rfl
  · exact hdepth hmem
  · rw [harmed _ hn, hcaught] at hx
    exact hx (prefix_freshName _ _ _)
  · rw [harmed _ hn, hflag] at hf
    exact hf (prefix_freshName _ _ _)

section Reserved

variable {armed : Option ArmedNames} {a : Ast}

/-- A tidy node does not name what it must not in a field. -/
theorem Tidy.isNamed (h : Tidy (Reserved armed) a) {name : String} (hname : Reserved armed name)
    {t : NodeType} (ht : a.type = t) {field : Field} (hfield : field ≠ .label)
    (hv : t ∉ [.memberExpression, .property, .methodDefinition, .metaProperty]) :
    isNamed name (a.child field) = false := by
  have hident := h.child (visits_of_type ht hfield hv)
  rw [XChainSdk.isNamed, Bool.and_eq_false_iff, decide_eq_false_iff_not, decide_eq_false_iff_not]
  by_cases htype : (a.child field).type = .identifier
  · refine .inr ?_
    rintro rfl
    exact hident ⟨htype, hname⟩
  · exact .inl htype

theorem Tidy.isCallOf (h : Tidy (Reserved armed) a) {name : String} (hname : Reserved armed name) :
    isCallOf name a = false := by
  rw [isCallOf_eq]
  by_cases ht : a.type = .callExpression
  · rw [h.isNamed hname ht (by decide) (by decide), Bool.and_false]
  · simp [ht]

theorem all_free (h : All (Tidy (Reserved armed)) a) : All (Free armed) a := by
  intro (s : Ast) hs
  have hall : All (Tidy (Reserved armed)) s := fun t ht => h t (ht.trans hs)
  have hdecl : ∀ (field : Field) (name : String), field ≠ .label → Reserved armed name →
      declares field name s = false := by
    intro field name hfield hname
    have hd : Tidy (Reserved armed) (s.child .declarations) :=
      (all_child hall tidy_leaf .declarations).self
    by_cases ht : (s.child .declarations).type = .variableDeclarator
    · simp [declares, hd.isNamed hname ht hfield (by decide)]
    · simp [declares, ht]
  exact {
    gas := hall.self.isCallOf (.inl rfl)
    flag := fun names hn => hdecl .id _ (by decide) (.inr (.inr ⟨names, hn, .inr rfl⟩))
    caught := fun names hn => hdecl .init _ (by decide) (.inr (.inr ⟨names, hn, .inl rfl⟩))
    param := fun names hn ht =>
      hall.self.isNamed (.inr (.inr ⟨names, hn, .inl rfl⟩)) ht (by decide) (by decide) }

theorem all_noDepth (h : All (Tidy (Reserved armed)) a) : All NoDepth a :=
  h.mono fun _ hs _ hname => hs.isCallOf (.inr (.inl hname))

end Reserved

/-- The names that the rewrites bind, where they are armed. -/
def MeterOptions.armed (opts : MeterOptions) (a : Ast) : Option ArmedNames :=
  if opts.nativeStackTerminal then some (chooseNames a) else none

theorem not_reserved_of_visited (opts : MeterOptions) {a : Ast}
    (h : findReservedIdentifier a = none) :
    ∀ name ∈ visitedNames a, ¬Reserved (opts.armed a) name := by
  intro name hname hreserved
  have hnone := List.find?_eq_none.1 h name hname
  rcases hreserved with rfl | hdepth | ⟨names, hn, hbound⟩
  · exact hnone (by decide)
  · exact hnone (by
      simp only [RESERVED_IDENTIFIERS, List.contains_eq_mem, List.mem_append, decide_eq_true_eq]
      exact .inr hdepth)
  · rw [MeterOptions.armed] at hn
    split_ifs at hn
    · obtain rfl := Option.some.inj hn
      rcases hbound with rfl | rfl
      exacts [freshName_notMem _ _ hname, freshName_notMem _ _ hname]
    · cases hn

/-- `function f(n) { while (n) n += f(...n); }` -/
def countdown : Ast :=
  let n := astIdent "n"
  .node { type := .program } [(.body, .node { type := .functionDeclaration }
    [(.id, astIdent "f"), (.params, n), (.body, blockStatement
      [.node { type := .whileStatement } [(.test, n), (.body, expressionStatement
        (.node { type := .assignmentExpression, operator := "+=" } [(.left, n), (.right,
          .node { type := .callExpression } [(.callee, astIdent "f"), (.arguments,
            .node { type := .spreadElement } [(.argument, n)])])]))]])])]

theorem grammatical_countdown : All Grammatical countdown := by
  have hcheck : Rose.check (fun a : Ast => a.type ∉ [.tryStatement, .catchClause,
      .conditionalExpression, .binaryExpression, .forStatement, .arrowFunctionExpression,
      .taggedTemplateExpression, .doWhileStatement, .forInStatement, .forOfStatement, .ifStatement,
      .functionExpression] && (a.type ≠ .assignmentExpression || (a.child .right).type.isOperand) &&
      (a.type ≠ .whileStatement || (a.nodes .body).all fun b => b.type ≠ .hole) &&
      (a.type ≠ .functionDeclaration || (a.nodes .body).all isBlock)) countdown = true := by decide
  refine (all_of_check hcheck).mono fun (a : Ast) h => ?_
  simp only [Bool.and_eq_true, decide_eq_true_eq, Bool.or_eq_true, List.all_eq_true] at h
  obtain ⟨⟨⟨hnone, hassign⟩, hloop⟩, hfn⟩ := h
  have hne : ∀ {t : NodeType}, t ∈ [.tryStatement, .catchClause, .conditionalExpression,
      .binaryExpression, .forStatement, .arrowFunctionExpression, .taggedTemplateExpression,
      .doWhileStatement, .forInStatement, .forOfStatement, .ifStatement, .functionExpression] →
      a.type ≠ t := by
    rintro t ht rfl
    exact hnone ht
  refine ⟨fun ht => absurd ht (hne (by decide)), fun ht => absurd ht (hne (by decide)),
    fun ht => absurd ht (hne (by decide)), fun ht => absurd ht (hne (by decide)),
    fun ht => absurd ht (hne (by decide)), fun ht => absurd ht (hne (by decide)),
    fun ht => hassign.resolve_left (not_not.2 ht), fun ht => absurd ht (hne (by decide)),
    fun ht b hb => ?_, fun ht => absurd ht (hne (by decide)), fun ht b hb => ?_⟩
  · have hwhile : a.type = .whileStatement := by
      simp only [List.mem_cons, List.not_mem_nil, or_false] at ht
      rcases ht with ht | ht | ht | ht | ht
      · exact absurd ht (hne (by decide))
      · exact ht
      · exact absurd ht (hne (by decide))
      · exact absurd ht (hne (by decide))
      · exact absurd ht (hne (by decide))
    exact hloop.resolve_left (not_not.2 hwhile) b (mem_nodes.2 hb)
  · have hdecl : a.type = .functionDeclaration := by
      simp only [List.mem_cons, List.not_mem_nil, or_false] at ht
      exact ht.resolve_right (hne (by decide))
    exact of_decide_eq_true (hfn.resolve_left (not_not.2 hdecl) b (mem_nodes.2 hb))

theorem leafNames_countdown : All LeafNames countdown := by
  have hcheck : Rose.check (fun a : Ast => a.kids.all fun k => a.label.visits k.1 ||
      (k.2.kids.isEmpty && (Ast.type k.2).isName)) countdown = true := by decide
  refine (all_of_check hcheck).mono fun a h field b hb hv => ?_
  have hk := List.all_eq_true.1 h _ hb
  simpa [hv] using hk

end XChainSdk
