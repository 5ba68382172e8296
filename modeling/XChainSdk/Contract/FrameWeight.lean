import Mathlib.Algebra.GroupWithZero.Nat
import XChainSdk.Contract.Ast

/-!
# The weight of a stack frame

* `demand` : how many temporaries a node holds at once while it is evaluated.
* `frameWeight` : the units of depth that a call of a function is charged.
-/

namespace XChainSdk

def SLOTS_PER_UNIT : ℕ := 32

def FIXED_SLOTS : ℕ := 8

/-- The registers that a statement holds while its body runs. -/
def STATEMENT_HOLD : NodeType → Option ℕ
  | .tryStatement => some 3
  | .forInStatement | .forOfStatement => some 6
  | .switchStatement => some 2
  | .forStatement | .whileStatement | .doWhileStatement => some 1
  | .labeledStatement => some 0
  | _ => none

/-- The parts of these run one after another, with nothing held between them. -/
def SEQUENTIAL : NodeType → Bool
  | .program | .blockStatement | .staticBlock | .variableDeclaration | .ifStatement
  | .expressionStatement | .returnStatement | .throwStatement | .switchCase | .catchClause
  | .emptyStatement | .breakStatement | .continueStatement | .debuggerStatement => true
  | _ => false

mutual

/-- `demand` -/
def demand : Ast → ℕ
  | .node l ks =>
    if l.type.isFunction then 1
    else match STATEMENT_HOLD l.type with
      | some hold => demandInTurn ks + hold
      | none =>
        if SEQUENTIAL l.type then demandInTurn ks
        -- an expression holds each operand while the ones after it are evaluated
        else if l.type = .callExpression ∨ l.type = .newExpression then
          max (demandHeld 0 ks) ((ks.filter (·.1 = .arguments)).length + 2) + 1
        else demandHeld 0 ks + 1

def demandInTurn : List (Field × Ast) → ℕ
  | [] => 0
  | k :: ks => max (demandKid k) (demandInTurn ks)

def demandHeld (held : ℕ) : List (Field × Ast) → ℕ
  | [] => 0
  | k :: ks =>
    if isHole k.2 then demandHeld held ks
    else max (held + demandKid k) (demandHeld (held + 1) ks)

def demandKid : Field × Ast → ℕ
  | (_, a) => if isHole a then 0 else demand a

end

mutual

/-- `patternNames` : how many names a pattern binds. -/
def patternNames : Ast → ℕ
  | .node l ks =>
    match l.type with
    | .identifier => 1
    | .assignmentPattern => namesAt .left ks
    | .restElement => namesAt .argument ks
    | .arrayPattern => namesAt .elements ks
    | .objectPattern => propertyNames ks
    | _ => 0

def namesAt (field : Field) : List (Field × Ast) → ℕ
  | [] => 0
  | k :: ks => (if k.1 = field then namesOfKid k else 0) + namesAt field ks

def propertyNames : List (Field × Ast) → ℕ
  | [] => 0
  | k :: ks => (if k.1 = .properties then namesOfProperty k else 0) + propertyNames ks

def namesOfKid : Field × Ast → ℕ
  | (_, a) => patternNames a

/-- A rest element binds its argument, a property its value. -/
def namesOfProperty : Field × Ast → ℕ
  | (_, .node l ks) => namesAt (if l.type = .restElement then .argument else .value) ks

end

mutual

/-- The locals that a node declares, without the functions under it. -/
def localsOf : Ast → ℕ
  | .node l ks =>
    (match l.type with
      | .variableDeclarator => namesAt .id ks
      | .catchClause => namesAt .param ks
      | .functionDeclaration | .classDeclaration =>
        if isHole (Ast.child (.node l ks) .id) then 0 else 1
      | _ => 0) +
    if l.type.isFunction then 0 else localsOfKids ks

def localsOfKids : List (Field × Ast) → ℕ
  | [] => 0
  | k :: ks => localsOfKid k + localsOfKids ks

def localsOfKid : Field × Ast → ℕ
  | (_, a) => localsOf a

end

/-- `localCount` -/
def localCount (body : Ast) : ℕ := ((body.nodes .body).map localsOf).sum

/-- `frameWeight` -/
def frameWeight (fn : Ast) : ℕ :=
  let params := ((fn.nodes .params).map fun p => patternNames p + 1).sum
  let body := if fn.type = .program then fn else fn.child .body
  let slots := FIXED_SLOTS + params + localCount body + demand body
  1 + slots / SLOTS_PER_UNIT

end XChainSdk
