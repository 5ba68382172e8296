import XChainSdk.Lib.Rose

/-!
# Syntax trees of contracts

* `Ast` : a syntax tree; a field that is null is a `hole`, and the nodes of a list field stand one
  after another under its key.
* `gasCallStatement`, `wrapWithGas`, `wrapDepthGuard` : the nodes that metering adds.
* `findReservedIdentifier` : whether a source names a metering hook.
-/

namespace XChainSdk

open Rose

/-- The types of nodes that the passes look at. -/
inductive NodeType
  | hole | program | blockStatement | staticBlock | expressionStatement | emptyStatement
  | returnStatement | throwStatement | breakStatement | continueStatement | debuggerStatement
  | labeledStatement | ifStatement | switchStatement | switchCase | tryStatement | catchClause
  | forStatement | forInStatement | forOfStatement | whileStatement | doWhileStatement
  | variableDeclaration | variableDeclarator | functionDeclaration | functionExpression
  | arrowFunctionExpression | classDeclaration | identifier | literal | arrayExpression
  | objectExpression | property | methodDefinition | spreadElement | sequenceExpression
  | unaryExpression | binaryExpression | assignmentExpression | conditionalExpression
  | callExpression | newExpression | memberExpression | chainExpression | metaProperty
  | templateLiteral | templateElement | taggedTemplateExpression | arrayPattern | objectPattern
  | assignmentPattern | restElement | other (name : String)
  deriving DecidableEq

/-- The fields that hold nodes. -/
inductive Field
  | id | params | body | test | consequent | alternate | init | update | left | right | object
  | property | callee | arguments | elements | properties | key | value | quasi | quasis | tag
  | expressions | expression | argument | block | handler | finalizer | param | declarations
  | label | other (name : String)
  deriving DecidableEq

/-- The value of a literal. -/
inductive LiteralValue
  | null
  | text (s : String)
  | num (n : ℕ)
  | other (raw : String)
  deriving DecidableEq

/-- A node without the nodes under it. -/
structure Label where
  type : NodeType
  /-- the name of an identifier -/
  name : String := ""
  /-- the value of a literal -/
  value : LiteralValue := .null
  operator : String := ""
  kind : String := ""
  computed : Bool := false
  method : Bool := false
  /-- the text of a part of a template; an invalid escape has none -/
  cooked : Option String := none
  raw : String := ""
  more : List (String × String) := []
  deriving DecidableEq

abbrev Ast := Rose Label Field

namespace Ast

def hole : Ast := .node { type := .hole } []

def type (a : Ast) : NodeType := a.label.type

@[simp] theorem type_node (l : Label) (ks : List (Field × Ast)) : type (.node l ks) = l.type := rfl

/-- The nodes of a field. -/
def nodes (a : Ast) (field : Field) : List Ast := (a.kids.filter (·.1 = field)).map Prod.snd

/-- The node of a field. -/
def child (a : Ast) (field : Field) : Ast := (a.nodes field).headD hole

/-- A function on the nodes of a field. -/
def updateKids (field : Field) (f : Ast → Ast) (ks : List (Field × Ast)) : List (Field × Ast) :=
  ks.map fun k => if k.1 = field then (k.1, f k.2) else k

def update (a : Ast) (field : Field) (f : Ast → Ast) : Ast :=
  .node a.label (updateKids field f a.kids)

section Fields

variable {a : Ast} {l : Label} {ks : List (Field × Ast)} {field field' : Field} {f g : Ast → Ast}

@[simp] theorem label_update : (a.update field f).label = a.label := rfl

@[simp] theorem type_update : (a.update field f).type = a.type := rfl

@[simp] theorem update_node :
    update (.node l ks) field f = .node l (updateKids field f ks) := rfl

@[simp] theorem updateKids_nil : updateKids field f [] = [] := rfl

@[simp] theorem updateKids_cons (k : Field × Ast) : updateKids field f (k :: ks) =
    (if k.1 = field then (k.1, f k.2) else k) :: updateKids field f ks := rfl

@[simp] theorem child_hole : hole.child field = hole := rfl

theorem child_mapKids (hole_eq : f hole = hole) :
    child (.node l (mapKids f ks)) field = f (child (.node l ks) field) := by
  induction ks with
  | nil => exact hole_eq.symm
  | cons k ks ih =>
    obtain ⟨place, b⟩ := k
    by_cases hf : place = field
    · simp [child, nodes, hf]
    · simpa [child, nodes, hf] using ih

theorem nodes_mapKids :
    nodes (.node l (mapKids f ks)) field = (nodes (.node l ks) field).map f := by
  simp [nodes, mapKids, List.filter_map, Function.comp_def]

theorem nodes_update (a : Ast) : (a.update field f).nodes field = (a.nodes field).map f := by
  obtain ⟨l, ks⟩ := a
  induction ks with
  | nil => rfl
  | cons k ks ih =>
    by_cases hf : k.1 = field
    · simpa [nodes, hf] using ih
    · simpa [nodes, hf] using ih

theorem nodes_update_of_ne (hne : field ≠ field') (a : Ast) :
    (a.update field f).nodes field' = a.nodes field' := by
  obtain ⟨l, ks⟩ := a
  induction ks with
  | nil => rfl
  | cons k ks ih =>
    obtain ⟨place, b⟩ := k
    by_cases hf : place = field
    · subst hf
      simpa [nodes, hne] using ih
    · by_cases hf' : place = field'
      · simpa [nodes, hf, hf', hne.symm] using ih
      · simpa [nodes, hf, hf'] using ih

theorem child_update_self (field : Field) (f : Ast → Ast) (a : Ast) :
    (a.update field f).child field = f (a.child field) ∨
    (a.update field f).child field = hole ∧ a.child field = hole := by
  obtain ⟨l, ks⟩ := a
  induction ks with
  | nil => exact .inr ⟨rfl, rfl⟩
  | cons k ks ih =>
    obtain ⟨place, b⟩ := k
    by_cases hf : place = field
    · exact .inl (by simp [child, nodes, hf])
    · simpa [child, nodes, hf] using ih

theorem mem_nodes {b : Ast} : b ∈ a.nodes field ↔ (field, b) ∈ a.kids := by
  simp [nodes]

/-- The node of a field is one of the branches, or the field is null. -/
theorem child_mem (l : Label) (ks : List (Field × Ast)) (field : Field) :
    (field, child (.node l ks) field) ∈ ks ∨ child (.node l ks) field = hole := by
  induction ks with
  | nil => exact .inr rfl
  | cons k ks ih =>
    obtain ⟨place, b⟩ := k
    by_cases hf : place = field
    · refine .inl ?_
      simp [child, nodes, hf]
    · have hchild : child (.node l ((place, b) :: ks)) field = child (.node l ks) field := by
        simp [child, nodes, hf]
      rw [hchild]
      exact ih.imp_left (List.mem_cons_of_mem _)

theorem all_child {P : Ast → Prop} (h : All P a) (hhole : P hole) (field : Field) :
    All P (a.child field) := by
  obtain ⟨l, ks⟩ := a
  rcases child_mem l ks field with hmem | hnone
  · exact h.kid hmem
  · rw [hnone]
    exact all_node.2 ⟨hhole, List.forall_mem_nil _⟩

theorem mem_updateKids {k : Field × Ast} (h : k ∈ updateKids field f ks) :
    k ∈ ks ∨ ∃ b, (field, b) ∈ ks ∧ k = (field, f b) := by
  obtain ⟨j, hj, rfl⟩ := List.mem_map.1 h
  split_ifs with hf
  · obtain ⟨place, b⟩ := j
    obtain rfl : place = field := hf
    exact .inr ⟨b, hj, rfl⟩
  · exact .inl hj

theorem updateKids_congr (h : ∀ b, (field, b) ∈ ks → f b = g b) :
    updateKids field f ks = updateKids field g ks := by
  refine List.map_congr_left fun k hk => ?_
  obtain ⟨place, b⟩ := k
  by_cases hf : place = field
  · subst hf
    simp only [if_true, h b hk]
  · simp only [if_neg hf]

theorem updateKids_eq_self (h : ∀ b, (field, b) ∈ ks → f b = b) :
    updateKids field f ks = ks := by
  rw [updateKids_congr (g := id) h]
  exact (List.map_congr_left fun k _ => by split_ifs <;> rfl).trans (List.map_id _)

theorem updateKids_updateKids :
    updateKids field g (updateKids field f ks) = updateKids field (fun b => g (f b)) ks := by
  rw [updateKids, updateKids, List.map_map]
  refine List.map_congr_left fun k _ => ?_
  by_cases hf : k.1 = field <;> simp [hf]

/-- A pass over the nodes of a field that are changed. -/
theorem mapKids_updateKids (h : ∀ b, (field, b) ∈ ks → f (g b) = f b) :
    mapKids f (updateKids field g ks) = mapKids f ks := by
  rw [mapKids, mapKids, updateKids, List.map_map]
  refine List.map_congr_left fun k hk => ?_
  obtain ⟨place, b⟩ := k
  by_cases hf : place = field
  · subst hf
    simp only [Function.comp_apply, if_true, h b hk]
  · simp only [Function.comp_apply, if_neg hf]

end Fields

end Ast

/-! ### Construction -/

def astIdent (name : String) : Ast := .node { type := .identifier, name } []

def astLiteral (value : LiteralValue) : Ast := .node { type := .literal, value } []

/-- A node with the nodes of one list field. -/
def listNode (type : NodeType) (field : Field) (nodes : List Ast) : Ast :=
  .node { type } (nodes.map fun a => (field, a))

@[simp] theorem type_listNode (type : NodeType) (field : Field) (nodes : List Ast) :
    (listNode type field nodes).type = type := rfl

def astArray (elements : List Ast) : Ast := listNode .arrayExpression .elements elements

def astCall (name : String) (args : List Ast) : Ast :=
  .node { type := .callExpression }
    ((.callee, astIdent name) :: args.map fun a => (Field.arguments, a))

def blockStatement (body : List Ast) : Ast := listNode .blockStatement .body body

def expressionStatement (e : Ast) : Ast := .node { type := .expressionStatement } [(.expression, e)]

/-- `__gas(1)` -/
def gasCallExpr : Ast := astCall "__gas" [astLiteral (.num 1)]

def gasCallStatement : Ast := expressionStatement gasCallExpr

/-- `(__gas(1), e)` -/
def wrapWithGas (e : Ast) : Ast := listNode .sequenceExpression .expressions [gasCallExpr, e]

def isBlock (a : Ast) : Bool := a.type = .blockStatement

def isHole (a : Ast) : Bool := a.type = .hole

/-- `isFunctionNode` -/
def NodeType.isFunction : NodeType → Bool
  | .functionDeclaration | .functionExpression | .arrowFunctionExpression => true
  | _ => false

/-- A call of the function of that name. -/
def isCallOf (name : String) (a : Ast) : Bool :=
  a.type = .callExpression && (a.child .callee).type = .identifier &&
    (a.child .callee).label.name = name

section All

variable {P : Ast → Prop}

theorem all_listNode {type : NodeType} {field : Field} {nodes : List Ast}
    (hself : P (listNode type field nodes)) (h : ∀ b ∈ nodes, All P b) :
    All P (listNode type field nodes) := by
  refine all_node.2 ⟨hself, fun k hk => ?_⟩
  obtain ⟨b, hb, rfl⟩ := List.mem_map.1 hk
  exact h b hb

theorem all_update {a : Ast} {field : Field} {f : Ast → Ast} (hself : P (a.update field f))
    (ha : ∀ k ∈ a.kids, All P k.2) (h : ∀ b, All P b → All P (f b)) :
    All P (a.update field f) := by
  refine all_node.2 ⟨hself, fun k hk => ?_⟩
  rcases Ast.mem_updateKids hk with hmem | ⟨b, hb, rfl⟩
  · exact ha k hmem
  · exact h b (ha _ hb)

end All

/-! ### Reserved names -/

def ALLOC_HELPERS : List String :=
  ["__concat", "__setconcat", "__setconcatL", "__tmpl", "__tmpltag", "__tmpltagm", "__arrspread",
    "__objspread", "__objspreadmeter"]

def DEPTH_HELPERS : List String := ["__depth_enter", "__depth_exit"]

def RESERVED_IDENTIFIERS : List String := ["__gas"] ++ ALLOC_HELPERS ++ DEPTH_HELPERS

/-- Whether a walk goes down a branch: it passes by the names that are no expressions. -/
def Label.visits (l : Label) (field : Field) : Bool :=
  match l.type, field with
  | .memberExpression, .property | .property, .key | .methodDefinition, .key => l.computed
  | .metaProperty, _ | _, .label => false
  | _, _ => true

mutual

/-- The names of the identifiers that `walk.full` comes to. -/
def visitedNames : Ast → List String
  | .node l ks => visitedKids l ks ++ if l.type = .identifier then [l.name] else []

def visitedKids (l : Label) : List (Field × Ast) → List String
  | [] => []
  | k :: ks => visitedKid l k ++ visitedKids l ks

def visitedKid (l : Label) : Field × Ast → List String
  | (field, a) => if l.visits field then visitedNames a else []

end

/-- `findReservedIdentifier` of a source that parses. -/
def findReservedIdentifier (a : Ast) : Option String :=
  (visitedNames a).find? RESERVED_IDENTIFIERS.contains

end XChainSdk
