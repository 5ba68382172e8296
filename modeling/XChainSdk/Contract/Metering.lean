import XChainSdk.Contract.Allocators
import XChainSdk.Contract.FrameWeight

/-!
# Metering

* `chargeEntry` : a charge at each function, loop, branch, case and part of a `try`.
* `chargeCalls` : a charge before each call that is found in its parent.
* `guardDepth` : every function counts its depth, and gives it back when it is left.
* `meterCode` : the metered source.
-/

namespace XChainSdk

open Rose

/-! ### Names -/

/-- `freshName`, with one more underscore at each try. -/
def freshName (used : List String) (base : String) : ℕ → String
  | 0 => base
  | n + 1 => if used.contains base then freshName used (base ++ "_") n else base

/-- The names that the armed rewrites bind. -/
structure ArmedNames where
  caught : String
  flag : String
  token : String

/-- `chooseNames` -/
def chooseNames (a : Ast) : ArmedNames :=
  let used := visitedNames a
  { caught := freshName used "__gasx" used.length
    flag := freshName used "__gasf" used.length
    token := freshName used "__gasd" used.length }

/-! ### Entry charges -/

/-- Whether a statement is a directive. -/
def isDirective (stmt : Ast) : Bool :=
  stmt.type = .expressionStatement && (stmt.child .expression).type = .literal &&
    match (stmt.child .expression).label.value with
    | .text _ => true
    | _ => false

/-- `directivePrologueLength` -/
def directivePrologueLength (body : List (Field × Ast)) : ℕ :=
  (body.takeWhile fun k => isDirective k.2).length

/-- `insertGasAfterDirectives` of the body of a block. -/
def insertGasAfterDirectives : Ast → Ast
  | .node l ks =>
    .node l (ks.takeWhile (fun k => isDirective k.2) ++
      (.body, gasCallStatement) :: ks.dropWhile fun k => isDirective k.2)

/-- `body.unshift(stmt)` of a block. -/
def unshift (stmt : Ast) : Ast → Ast
  | .node l ks => if l.type = .blockStatement then .node l ((.body, stmt) :: ks) else .node l ks

/-- `ensureBlock` -/
def ensureBlock (a : Ast) : Ast := if isHole a || isBlock a then a else blockStatement [a]

/-- `chargeLoopBody` -/
def chargeLoopBody (a : Ast) : Ast :=
  a.update .body fun b => unshift gasCallStatement (ensureBlock b)

/-- `__gas(1, name)` as a statement -/
def gasCheckStatement (name : String) : Ast :=
  expressionStatement (astCall "__gas" [astLiteral (.num 1), astIdent name])

def variableDeclaration (kind : String) (id init : Ast) : Ast :=
  .node { type := .variableDeclaration, kind }
    [(.declarations, .node { type := .variableDeclarator } [(.id, id), (.init, init)])]

def letDeclaration (id init : Ast) : Ast := variableDeclaration "let" id init

def throwStatement (e : Ast) : Ast := .node { type := .throwStatement } [(.argument, e)]

def catchClause (param body : Ast) : Ast :=
  .node { type := .catchClause } [(.param, param), (.body, body)]

def tryStatement (block handler finalizer : Ast) : Ast :=
  .node { type := .tryStatement }
    [(.block, block), (.handler, handler), (.finalizer, finalizer)]

/-- `armHandler` -/
def armHandler (names : ArmedNames) (handler : Ast) : Ast :=
  let param := handler.child .param
  if handler.type ≠ .catchClause then handler
  else if param.type = .identifier then
    handler.update .body (unshift (gasCheckStatement param.label.name))
  else
    -- a pattern is read after the check, so that its defaults cannot hide what was caught
    let bound := handler.update .param fun _ => astIdent names.caught
    let opened := if isHole param then bound
      else bound.update .body (unshift (letDeclaration param (astIdent names.caught)))
    opened.update .body (unshift (gasCheckStatement names.caught))

/-- The handler of an armed `try`, which records what it caught for the finalizer. -/
def recordHandler (names : ArmedNames) : Ast :=
  catchClause (astIdent names.caught) (blockStatement
    [expressionStatement (.node { type := .assignmentExpression, operator := "=" }
      [(.left, astIdent names.flag), (.right, astIdent names.caught)]),
    throwStatement (astIdent names.caught)])

/-- `armTryStatement` -/
def armTryStatement (names : ArmedNames) (a : Ast) : Ast :=
  let armed := (a.update .block (unshift gasCallStatement)).update .handler (armHandler names)
  if isHole (a.child .finalizer) then armed
  else
    -- the finalizer checks what is in flight before any statement of its own
    let guarded := if isHole (a.child .handler) then armed.child .block
      else blockStatement [tryStatement (armed.child .block) (armed.child .handler) Ast.hole]
    blockStatement [letDeclaration (astIdent names.flag) Ast.hole,
      tryStatement guarded (recordHandler names)
        (unshift (gasCheckStatement names.flag) (a.child .finalizer))]

/-- A handler that charges. -/
def chargeHandler (handler : Ast) : Ast :=
  if handler.type = .catchClause then handler.update .body (unshift gasCallStatement) else handler

/-- The visitors of `injectBlockGas`. -/
def chargeEntry (armed : Option ArmedNames) (a : Ast) : Ast :=
  match a.type with
  | .functionDeclaration | .functionExpression =>
    a.update .body fun b => if isBlock b then insertGasAfterDirectives b else b
  | .arrowFunctionExpression =>
    a.update .body fun b => if isBlock b then insertGasAfterDirectives b else wrapWithGas b
  | .forStatement =>
    (chargeLoopBody a).update .update fun u =>
      if isHole u then gasCallExpr else wrapWithGas u
  | .whileStatement | .doWhileStatement | .forInStatement | .forOfStatement => chargeLoopBody a
  | .ifStatement =>
    (a.update .consequent fun b => unshift gasCallStatement (ensureBlock b)).update .alternate
      fun b =>
        -- the next condition of a chain charges for itself
        if isHole b || b.type = .ifStatement then b
        else unshift gasCallStatement (ensureBlock b)
  | .switchCase =>
    -- an empty case falls through, and the next one charges
    if (a.nodes .consequent).isEmpty then a
    else .node a.label (a.kids.takeWhile (·.1 ≠ .consequent) ++
      (.consequent, gasCallStatement) :: a.kids.dropWhile (·.1 ≠ .consequent))
  | .tryStatement =>
    match armed with
    | some names => armTryStatement names a
    | none =>
      ((a.update .block (unshift gasCallStatement)).update .handler chargeHandler).update
        .finalizer (unshift gasCallStatement)
  | .conditionalExpression => a.update .test wrapWithGas
  | _ => a

/-- `injectBlockGas` -/
def injectBlockGas (armed : Option ArmedNames) (a : Ast) : Ast := rewrite (chargeEntry armed) a

/-! ### Long chains of operators -/

mutual

/-- `binaryDepth` -/
def binaryDepth : Ast → ℕ
  | .node l ks => if l.type = .binaryExpression then leftDepth ks + 1 else 0

def leftDepth : List (Field × Ast) → ℕ
  | [] => 0
  | k :: ks => if k.1 = .left then leftDepthOf k else leftDepth ks

def leftDepthOf : Field × Ast → ℕ
  | (_, a) => binaryDepth a

end

/-- The charge on the left of a chain, so many operators down. -/
def wrapLeft : ℕ → Ast → Ast
  | 0, a => a.update .left wrapWithGas
  | n + 1, a => a.update .left fun b =>
      if b.type = .binaryExpression then wrapLeft n b else wrapWithGas b

/-- The visitor of `injectBinaryDepthGas`. -/
def chargeChain (a : Ast) : Ast :=
  if a.type = .binaryExpression ∧ 10 < binaryDepth a then wrapLeft 10 a else a

/-- `injectBinaryDepthGas` -/
def injectBinaryDepthGas (a : Ast) : Ast := rewrite chargeChain a

/-! ### Calls -/

/-- Whether a call is charged: the hooks charge for themselves. -/
def isCharged (a : Ast) : Bool :=
  let callee := a.child .callee
  let object := callee.child .object
  a.type = .callExpression &&
    !(callee.type = .identifier &&
      (callee.label.name = "__gas" || ALLOC_HELPERS.contains callee.label.name)) &&
    !(callee.type = .memberExpression && object.type = .identifier &&
      object.label.name = "__gas")

/-- Where a node stands: the types of the node above its parent and of its parent. -/
abbrev Place : Type := NodeType × NodeType

/-- The nodes of an object pattern that a walk passes by: it comes from the pattern to their keys and
values. -/
def NodeType.passedBy : List NodeType := [.property, .restElement]

/-- Is a node found under the keys of the one that the walk came from?  In an object pattern that is
the pattern, which holds the property of a key and not the key. -/
def isFound (place : Place) : Bool :=
  !(place.1 = .objectPattern && NodeType.passedBy.contains place.2)

/-- The visitor of `injectCallGas`, at the place of the call in its parent; a call that is not found
there stays as it is. -/
def chargeCall (place : Place) (a : Ast) : Ast :=
  if isCharged a && isFound place then wrapWithGas a else a

/-- The walk of `injectCallGas` below the top. -/
def chargeCalls (place : Place) (a : Ast) : Ast :=
  rewriteFrom (fun place l => (place.2, l.type)) chargeCall place a

/-- `injectCallGas` -/
def injectCallGas : Ast → Ast
  | .node l ks => .node l (mapKids (chargeCalls (.hole, l.type)) ks)

theorem chargeCalls_node (place : Place) (l : Label) (ks : List (Field × Ast)) :
    chargeCalls place (.node l ks) =
      chargeCall place (.node l (mapKids (chargeCalls (place.2, l.type)) ks)) :=
  rewriteFrom_node _ _ _ _ _

/-- A call that is the computed key of a property of an object pattern is not charged. -/
theorem chargeCalls_key (a : Ast) :
    chargeCalls (.objectPattern, .property) a =
      .node a.label (mapKids (chargeCalls (.property, a.type)) a.kids) := by
  obtain ⟨l, ks⟩ := a
  rw [chargeCalls_node, chargeCall, if_neg]
  · rfl
  · simp [isFound, NodeType.passedBy]

/-! ### Depth -/

def depthExit (args : List Ast) : Ast := expressionStatement (astCall "__depth_exit" args)

/-- The entry of `armedDepthPair`. -/
def depthEnter (weight : ℕ) (token : String) : Ast :=
  variableDeclaration "const" (astIdent token) (astCall "__depth_enter" [astLiteral (.num weight)])

/-- `wrapDepthGuard` of the body of a function. -/
def wrapDepthGuard (armed : Option (ℕ × ArmedNames)) : Ast → Ast
  | .node l ks =>
    let rest := Rose.node { type := .blockStatement } (ks.dropWhile fun k => isDirective k.2)
    .node l (ks.takeWhile (fun k => isDirective k.2) ++
      match armed with
      | none =>
        [(.body, expressionStatement (astCall "__depth_enter" [])),
          (.body, tryStatement rest Ast.hole (blockStatement [depthExit []]))]
      | some (weight, names) =>
        -- what leaves by throwing is checked before the units are given back
        [(.body, depthEnter weight names.token),
          (.body, tryStatement rest
            (catchClause (astIdent names.caught) (blockStatement
              [depthExit [astIdent names.caught], throwStatement (astIdent names.caught)]))
            (blockStatement [depthExit [astIdent names.token, astLiteral (.num 0)]]))])

/-- `return e` as the body of an arrow -/
def returnBlock (e : Ast) : Ast :=
  blockStatement [.node { type := .returnStatement } [(.argument, e)]]

/-- A function whose body is a block. -/
def blockBodied (a : Ast) : Ast :=
  if a.type = .arrowFunctionExpression then
    a.update .body fun b => if isBlock b then b else returnBlock b
  else a

/-- The visitors of `injectDepthGuards`. -/
def guardDepth (armed : Option ArmedNames) (a : Ast) : Ast :=
  if a.type.isFunction then
    let fn := blockBodied a
    fn.update .body fun b =>
      if isBlock b then wrapDepthGuard (armed.map fun names => (frameWeight fn, names)) b else b
  else a

/-- `injectDepthGuards` -/
def injectDepthGuards (armed : Option ArmedNames) (a : Ast) : Ast := rewrite (guardDepth armed) a

/-! ### The whole pass -/

/-- `chargeTopLevelFrame` -/
def chargeTopLevelFrame (names : ArmedNames) (a : Ast) : Ast :=
  let ks := a.kids
  -- behind the directives and the entry charge
  let n := directivePrologueLength ks + 1
  .node a.label (ks.take n ++ (.body, depthEnter (frameWeight a) names.token) :: ks.drop n ++
    [(.body, depthExit [astIdent names.token, astLiteral (.num 0)])])

/-- The flags of `meterCode`. -/
structure MeterOptions where
  specEvalOrder : Bool
  meterCallSpread : Bool
  meterRestPattern : Bool
  nativeStackTerminal : Bool

def MeterOptions.allocators (opts : MeterOptions) : AllocatorOptions where
  specEvalOrder := opts.specEvalOrder
  meterCallSpread := opts.meterCallSpread
  meterRestPattern := opts.meterRestPattern
  holdCallSpread := opts.nativeStackTerminal

/-- The four passes of `meterCode` that add charges. -/
def injectCharges (armed : Option ArmedNames) (a : Ast) : Ast :=
  injectDepthGuards armed
    (injectCallGas (injectBinaryDepthGas (injectBlockGas armed (insertGasAfterDirectives a))))

/-- `meterCode` of a source that parses, before it is written out. -/
def meterCode (opts : MeterOptions) (a : Ast) : Ast :=
  -- before any helper is there, so that only the names of the contract are in use
  let names := chooseNames a
  let armed := if opts.nativeStackTerminal then some names else none
  let charged := injectCharges armed (transformAllocators opts.allocators a)
  if opts.nativeStackTerminal then chargeTopLevelFrame names charged else charged

end XChainSdk
