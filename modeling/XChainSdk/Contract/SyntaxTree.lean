import Mathlib.Data.List.Basic
import Mathlib.Data.Nat.Basic

/-!
# Syntax trees and their tokens

What the passes behind the depth scan recurse along: trees of expressions and statements, the labels
of the tokens that a source spells them with, and their height.

* `Expr`, `Exprs`, `Stmt`, `Stmts` : trees; a label out of a list cannot be any other.
* `Expr.labels`, `Expr.height` : the tokens, and the nodes on the longest path down.
-/

namespace XChainSdk

namespace SyntaxDepth

/-! ### Trees -/

def LEAF_LABELS : List String :=
  ["name", "num", "string", "regexp", "bigint", "this", "null", "true", "false", "super"]

def UNARY_LABELS : List String :=
  ["!/~", "+/-", "++/--", "typeof", "void", "delete", "new", "..."]

def BINARY_LABELS : List String :=
  ["=", "_=", "||", "&&", "??", "|", "^", "&", "==/!=/===/!==", "</>/<=/>=", "<</>>/>>>", "+/-",
   "%", "*", "/", "**", "in", "instanceof"]

def MEMBER_LABELS : List String := [".", "?."]

def JUMP_LABELS : List String := ["return", "throw"]

def DECLARE_LABELS : List String := ["var", "const"]

/-- A label out of a list. -/
abbrev Among (labels : List String) : Type := { label : String // label ∈ labels }

mutual

/-- An expression. -/
inductive Expr where
  | leaf (label : Among LEAF_LABELS)
  | unary (op : Among UNARY_LABELS) (e : Expr)
  | update (e : Expr)
  | binary (a : Expr) (op : Among BINARY_LABELS) (b : Expr)
  | conditional (test a b : Expr)
  | member (e : Expr) (op : Among MEMBER_LABELS)
  | index (e i : Expr)
  | call (f : Expr) (args : Exprs)
  | group (es : Exprs)
  | array (es : Exprs)
  | property (value : Expr)
  | object (properties : Exprs)
  | template (parts : Exprs)
  | arrow (params : Exprs) (body : Expr)
  | arrowBlock (params : Exprs) (body : Stmts)
  | function (params : Exprs) (body : Stmts)

/-- Expressions between commas, or the parts of a template. -/
inductive Exprs where
  | nil
  | cons (e : Expr) (es : Exprs)

/-- A statement. -/
inductive Stmt where
  | expression (e : Expr)
  | block (body : Stmts)
  | ifThen (test : Expr) (s : Stmt)
  | ifElse (test : Expr) (s t : Stmt)
  | whileLoop (test : Expr) (s : Stmt)
  | doWhile (s : Stmt) (test : Expr)
  | forLoop (start test update : Expr) (s : Stmt)
  | labelled (s : Stmt)
  | jump (label : Among JUMP_LABELS) (e : Expr)
  | declare (label : Among DECLARE_LABELS) (e : Expr)
  | tryCatch (body handler : Stmts)
  | tryFinally (body final : Stmts)
  | function (params : Exprs) (body : Stmts)

/-- Statements in a row. -/
inductive Stmts where
  | nil
  | cons (s : Stmt) (rest : Stmts)

end

/-! ### Their tokens -/

mutual

/-- The labels of an expression's tokens. -/
def Expr.labels : Expr → List String
  | .leaf label => [label.val]
  | .unary op e => [op.val] ++ e.labels
  | .update e => e.labels ++ ["++/--"]
  | .binary a op b => a.labels ++ ([op.val] ++ b.labels)
  | .conditional test a b => test.labels ++ (["?"] ++ (a.labels ++ ([":"] ++ b.labels)))
  | .member e op => e.labels ++ ([op.val] ++ ["name"])
  | .index e i => e.labels ++ (["["] ++ (i.labels ++ ["]"]))
  | .call f args => f.labels ++ (["("] ++ (args.labels ++ [")"]))
  | .group es => ["("] ++ (es.labels ++ [")"])
  | .array es => ["["] ++ (es.labels ++ ["]"])
  | .property value => ["name"] ++ ([":"] ++ value.labels)
  | .object properties => ["\x7b"] ++ (properties.labels ++ ["\x7d"])
  | .template parts => ["\x60"] ++ (["template"] ++ (parts.partLabels ++ ["\x60"]))
  | .arrow params body => (["("] ++ (params.labels ++ [")"])) ++ (["=>"] ++ body.labels)
  | .arrowBlock params body =>
    (["("] ++ (params.labels ++ [")"])) ++ (["=>"] ++ (["\x7b"] ++ (body.labels ++ ["\x7d"])))
  | .function params body =>
    ["function"] ++ ((["("] ++ (params.labels ++ [")"])) ++ (["\x7b"] ++ (body.labels ++ ["\x7d"])))

/-- The labels of expressions between commas. -/
def Exprs.labels : Exprs → List String
  | .nil => []
  | .cons e es => e.labels ++ es.moreLabels

/-- The labels of the expressions after the first. -/
def Exprs.moreLabels : Exprs → List String
  | .nil => []
  | .cons e es => [","] ++ (e.labels ++ es.moreLabels)

/-- The labels of the parts of a template. -/
def Exprs.partLabels : Exprs → List String
  | .nil => []
  | .cons e es => (["$\x7b"] ++ (e.labels ++ ["\x7d"])) ++ (["template"] ++ es.partLabels)

/-- The labels of a statement's tokens. -/
def Stmt.labels : Stmt → List String
  | .expression e => e.labels ++ [";"]
  | .block body => ["\x7b"] ++ (body.labels ++ ["\x7d"])
  | .ifThen test s => ["if"] ++ ((["("] ++ (test.labels ++ [")"])) ++ s.labels)
  | .ifElse test s t =>
    ["if"] ++ ((["("] ++ (test.labels ++ [")"])) ++ (s.labels ++ (["else"] ++ t.labels)))
  | .whileLoop test s => ["while"] ++ ((["("] ++ (test.labels ++ [")"])) ++ s.labels)
  | .doWhile s test =>
    ["do"] ++ (s.labels ++ (["while"] ++ ((["("] ++ (test.labels ++ [")"])) ++ [";"])))
  | .forLoop start test update s =>
    ["for"] ++ ((["("] ++ (((start.labels ++ [";"]) ++ ((test.labels ++ [";"]) ++ update.labels)) ++
      [")"])) ++ s.labels)
  | .labelled s => (["name"] ++ [":"]) ++ s.labels
  | .jump label e => [label.val] ++ (e.labels ++ [";"])
  | .declare label e => [label.val] ++ (["name"] ++ (["="] ++ (e.labels ++ [";"])))
  | .tryCatch body handler =>
    (["try"] ++ (["\x7b"] ++ (body.labels ++ ["\x7d"]))) ++ (["catch"] ++
      ((["("] ++ (["name"] ++ [")"])) ++ (["\x7b"] ++ (handler.labels ++ ["\x7d"]))))
  | .tryFinally body final =>
    (["try"] ++ (["\x7b"] ++ (body.labels ++ ["\x7d"]))) ++ (["finally"] ++
      (["\x7b"] ++ (final.labels ++ ["\x7d"])))
  | .function params body =>
    ["function"] ++ (["name"] ++ ((["("] ++ (params.labels ++ [")"])) ++
      (["\x7b"] ++ (body.labels ++ ["\x7d"]))))

/-- The labels of statements in a row. -/
def Stmts.labels : Stmts → List String
  | .nil => []
  | .cons s rest => s.labels ++ rest.labels

end

/-! ### Their height -/

mutual

/-- The nodes on the longest path down an expression; a property's node counts for its object. -/
def Expr.height : Expr → ℕ
  | .leaf _ => 1
  | .unary _ e => 1 + e.height
  | .update e => 1 + e.height
  | .binary a _ b => 1 + max a.height b.height
  | .conditional test a b => 1 + max test.height (max a.height b.height)
  | .member e _ => 1 + e.height
  | .index e i => 1 + max e.height i.height
  | .call f args => 1 + max f.height args.height
  | .group es => 1 + es.height
  | .array es => 1 + es.height
  | .property value => value.height
  | .object properties => 2 + properties.height
  | .template parts => 1 + parts.height
  | .arrow params body => 1 + max params.height body.height
  | .arrowBlock params body => 1 + max params.height (1 + body.height)
  | .function params body => 1 + max params.height (1 + body.height)

/-- The nodes on the longest path down one of the expressions. -/
def Exprs.height : Exprs → ℕ
  | .nil => 0
  | .cons e es => max e.height es.height

/-- The nodes on the longest path down a statement: a declaration has a declarator, and a handler
is a clause with a block. -/
def Stmt.height : Stmt → ℕ
  | .expression e => 1 + e.height
  | .block body => 1 + body.height
  | .ifThen test s => 1 + max test.height s.height
  | .ifElse test s t => 1 + max test.height (max s.height t.height)
  | .whileLoop test s => 1 + max test.height s.height
  | .doWhile s test => 1 + max s.height test.height
  | .forLoop start test update s =>
    1 + max (max start.height (max test.height update.height)) s.height
  | .labelled s => 1 + s.height
  | .jump _ e => 1 + e.height
  | .declare _ e => 2 + e.height
  | .tryCatch body handler => 1 + max (1 + body.height) (2 + handler.height)
  | .tryFinally body final => 1 + max (1 + body.height) (1 + final.height)
  | .function params body => 1 + max params.height (1 + body.height)

/-- The nodes on the longest path down one of the statements. -/
def Stmts.height : Stmts → ℕ
  | .nil => 0
  | .cons s rest => max s.height rest.height

end

/-! ### Labels -/

theorem Expr.labels_ne_nil (e : Expr) : e.labels ≠ [] := by
  cases e <;> simp [Expr.labels]

theorem Stmt.labels_ne_nil (s : Stmt) : s.labels ≠ [] := by
  cases s <;> simp [Stmt.labels]

theorem Among.ne_eof {labels : List String} (h : "eof" ∉ labels) (label : Among labels) :
    "eof" ≠ label.val := fun heq => h (heq ▸ label.property)

mutual

theorem Expr.eof_notMem : (e : Expr) → "eof" ∉ e.labels
  | .leaf label => by simp [Expr.labels, Among.ne_eof (by decide) label]
  | .unary op e => by simp [Expr.labels, Among.ne_eof (by decide) op, e.eof_notMem]
  | .update e => by simp [Expr.labels, e.eof_notMem]
  | .binary a op b => by
    simp [Expr.labels, Among.ne_eof (by decide) op, a.eof_notMem, b.eof_notMem]
  | .conditional test a b => by
    simp [Expr.labels, test.eof_notMem, a.eof_notMem, b.eof_notMem]
  | .member e op => by simp [Expr.labels, Among.ne_eof (by decide) op, e.eof_notMem]
  | .index e i => by simp [Expr.labels, e.eof_notMem, i.eof_notMem]
  | .call f args => by simp [Expr.labels, f.eof_notMem, args.eof_notMem]
  | .group es => by simp [Expr.labels, es.eof_notMem]
  | .array es => by simp [Expr.labels, es.eof_notMem]
  | .property value => by simp [Expr.labels, value.eof_notMem]
  | .object properties => by simp [Expr.labels, properties.eof_notMem]
  | .template parts => by simp [Expr.labels, parts.eof_notMem_parts]
  | .arrow params body => by simp [Expr.labels, params.eof_notMem, body.eof_notMem]
  | .arrowBlock params body => by simp [Expr.labels, params.eof_notMem, body.eof_notMem]
  | .function params body => by simp [Expr.labels, params.eof_notMem, body.eof_notMem]

theorem Exprs.eof_notMem : (es : Exprs) → "eof" ∉ es.labels
  | .nil => by simp [Exprs.labels]
  | .cons e es => by simp [Exprs.labels, e.eof_notMem, es.eof_notMem_more]

theorem Exprs.eof_notMem_more : (es : Exprs) → "eof" ∉ es.moreLabels
  | .nil => by simp [Exprs.moreLabels]
  | .cons e es => by simp [Exprs.moreLabels, e.eof_notMem, es.eof_notMem_more]

theorem Exprs.eof_notMem_parts : (es : Exprs) → "eof" ∉ es.partLabels
  | .nil => by simp [Exprs.partLabels]
  | .cons e es => by simp [Exprs.partLabels, e.eof_notMem, es.eof_notMem_parts]

theorem Stmt.eof_notMem : (s : Stmt) → "eof" ∉ s.labels
  | .expression e => by simp [Stmt.labels, e.eof_notMem]
  | .block body => by simp [Stmt.labels, body.eof_notMem]
  | .ifThen test s => by simp [Stmt.labels, test.eof_notMem, s.eof_notMem]
  | .ifElse test s t => by simp [Stmt.labels, test.eof_notMem, s.eof_notMem, t.eof_notMem]
  | .whileLoop test s => by simp [Stmt.labels, test.eof_notMem, s.eof_notMem]
  | .doWhile s test => by simp [Stmt.labels, test.eof_notMem, s.eof_notMem]
  | .forLoop start test update s => by
    simp [Stmt.labels, start.eof_notMem, test.eof_notMem, update.eof_notMem, s.eof_notMem]
  | .labelled s => by simp [Stmt.labels, s.eof_notMem]
  | .jump label e => by simp [Stmt.labels, Among.ne_eof (by decide) label, e.eof_notMem]
  | .declare label e => by simp [Stmt.labels, Among.ne_eof (by decide) label, e.eof_notMem]
  | .tryCatch body handler => by simp [Stmt.labels, body.eof_notMem, handler.eof_notMem]
  | .tryFinally body final => by simp [Stmt.labels, body.eof_notMem, final.eof_notMem]
  | .function params body => by simp [Stmt.labels, params.eof_notMem, body.eof_notMem]

theorem Stmts.eof_notMem : (rest : Stmts) → "eof" ∉ rest.labels
  | .nil => by simp [Stmts.labels]
  | .cons s rest => by simp [Stmts.labels, s.eof_notMem, rest.eof_notMem]

end

end SyntaxDepth

end XChainSdk
