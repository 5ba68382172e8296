import XChainSdk.Contract.Ast

/-!
# Metered allocators

Syntax that copies or builds without a call: string `+`, templates, spreads and rests.

* `convert` : one node, whose parts are converted, as a call of a metering helper.
* `recur` : the whole tree, parts first; a call that spreads gets the number of its site.
* `transformAllocators` : the pass.
-/

namespace XChainSdk

open Rose

/-- `void 0` -/
def astVoid0 : Ast :=
  .node { type := .unaryExpression, operator := "void" } [(.argument, astLiteral (.num 0))]

/-- `() => e` -/
def arrowThunk (e : Ast) : Ast :=
  .node { type := .arrowFunctionExpression } [(.id, Ast.hole), (.body, e)]

/-- A name as a literal: the name of an identifier, or the value of a literal. -/
def keyLiteral (key : Ast) : Ast :=
  if key.type = .identifier then astLiteral (.text key.label.name) else astLiteral key.label.value

/-- `memberKeyExpr` -/
def memberKeyExpr (member : Ast) : Ast :=
  if member.label.computed then member.child .property else keyLiteral (member.child .property)

/-- What a pattern copies with a rest at its top. -/
inductive RestKind
  | obj
  | arr

/-- `restKind` -/
def restKind (pat : Ast) : Option RestKind :=
  match pat.type with
  | .objectPattern =>
    if (pat.nodes .properties).any (·.type = .restElement) then some .obj else none
  | .arrayPattern =>
    if (pat.nodes .elements).any (·.type = .restElement) then some .arr else none
  | _ => none

/-- A segment of `__arrspread` and `__objspread`. -/
def segment (tag : String) (parts : List Ast) : Ast := astArray (astLiteral (.text tag) :: parts)

/-- `meterRestSource` -/
def meterRestSource (pat src : Ast) : Ast :=
  match restKind pat with
  | some .obj => astCall "__objspreadmeter" [src]
  | some .arr => astCall "__arrspread" [astArray [segment "s" [src]]]
  | none => src

/-- `convertConcat` -/
def convertConcat (specEvalOrder : Bool) (a : Ast) : Option Ast :=
  let left := a.child .left
  let right := a.child .right
  if a.type = .binaryExpression ∧ a.label.operator = "+" then
    some (astCall "__concat" [left, right])
  else if a.type ≠ .assignmentExpression ∨ a.label.operator ≠ "+=" then none
  else if left.type = .identifier then
    some (.node { type := .assignmentExpression, operator := "=" }
      [(.left, left), (.right, astCall "__concat" [left, right])])
  else if left.type = .memberExpression then
    some (if specEvalOrder then
        astCall "__setconcatL" [left.child .object, memberKeyExpr left, arrowThunk right]
      else astCall "__setconcat" [left.child .object, memberKeyExpr left, right])
  else none

/-- `convertTaggedTemplate` -/
def convertTaggedTemplate (a : Ast) : Option Ast :=
  if a.type ≠ .taggedTemplateExpression then none
  else
    let tl := a.child .quasi
    let tag := a.child .tag
    let cooked := (tl.nodes .quasis).map fun q =>
      match q.label.cooked with
      | none => astVoid0
      | some text => astLiteral (.text text)
    let raw := (tl.nodes .quasis).map fun q => astLiteral (.text q.label.raw)
    let exprs := astArray (tl.nodes .expressions)
    some (if tag.type = .memberExpression then
        astCall "__tmpltagm"
          [tag.child .object, memberKeyExpr tag, astArray cooked, astArray raw, exprs]
      else astCall "__tmpltag" [tag, astArray cooked, astArray raw, exprs])

/-- The texts of a template with its expressions between them. -/
def templateParts : List Ast → List Ast → List Ast
  | [], _ => []
  | q :: qs, es =>
    astLiteral ((q.label.cooked.map LiteralValue.text).getD .null) :: match es with
      | [] => templateParts qs []
      | e :: es => e :: templateParts qs es

/-- `convertTemplateLiteral`; the template of a tag stays. -/
def convertTemplateLiteral (tagged : Bool) (a : Ast) : Option Ast :=
  if a.type ≠ .templateLiteral ∨ tagged then none
  else some (astCall "__tmpl" [astArray (templateParts (a.nodes .quasis) (a.nodes .expressions))])

def isSpread (a : Ast) : Bool := a.type = .spreadElement

/-- `convertArraySpread` -/
def convertArraySpread (a : Ast) : Option Ast :=
  if a.type ≠ .arrayExpression ∨ !(a.nodes .elements).any isSpread then none
  else
    let segs := (a.nodes .elements).map fun e =>
      if isHole e then segment "h" []
      else if isSpread e then segment "s" [e.child .argument]
      else segment "e" [e]
    some (astCall "__arrspread" [astArray segs])

/-- Whether `__objspread` can rebuild a member of an object: no accessor and no method. -/
def isPlainMember (p : Ast) : Bool :=
  isSpread p || p.type = .property && p.label.kind = "init" && !p.label.method

/-- `convertObjectSpread` -/
def convertObjectSpread (a : Ast) : Option Ast :=
  let properties := a.nodes .properties
  if a.type ≠ .objectExpression ∨ !properties.any isSpread then none
  else if !properties.all isPlainMember then
    some (a.update .properties fun p =>
      if isSpread p then p.update .argument fun e => astCall "__objspreadmeter" [e] else p)
  else
    let segs := properties.map fun p =>
      if isSpread p then segment "s" [p.child .argument]
      else
        let key := p.child .key
        segment "p" [astArray [if p.label.computed then key else keyLiteral key, p.child .value]]
    some (astCall "__objspread" [astArray segs])

/-- `convertRestPattern` -/
def convertRestPattern (meterRestPattern : Bool) (a : Ast) : Option Ast :=
  let left := a.child .left
  if !meterRestPattern then none
  else if a.type = .variableDeclarator ∧ !isHole (a.child .init) then
    some (a.update .init (meterRestSource (a.child .id)))
  else if a.type = .assignmentExpression ∧ a.label.operator = "=" ∧
      (left.type = .arrayPattern ∨ left.type = .objectPattern) then
    some (a.update .right (meterRestSource left))
  else none

/-- The flags of the pass. -/
structure AllocatorOptions where
  specEvalOrder : Bool
  meterCallSpread : Bool
  meterRestPattern : Bool
  holdCallSpread : Bool

/-- `convertCallSpread`, with the sites that are numbered so far. -/
def convertCallSpread (opts : AllocatorOptions) (chainDepth : ℕ) (a : Ast) (sites : ℕ) :
    Option (Ast × ℕ) :=
  let args := a.nodes .arguments
  if !opts.meterCallSpread ∨ (a.type ≠ .callExpression ∧ a.type ≠ .newExpression) ∨
      !args.any isSpread then none
  else
    let segs := astArray (args.map fun e =>
      if isSpread e then segment "s" [e.child .argument] else segment "e" [e])
    let spreading (list : List Ast) : Ast :=
      .node a.label (a.kids.filter (·.1 ≠ .arguments) ++
        [(.arguments, .node { type := .spreadElement } [(.argument, astCall "__arrspread" list)])])
    if !opts.holdCallSpread then some (spreading [segs], sites)
    else
      let id := astLiteral (.num sites)
      let held := spreading [segs, astLiteral (.num 1), id]
      -- inside an optional chain the release would break the short circuit
      some (if 0 < chainDepth then held
        else astCall "__arrspread" [held, astLiteral (.num 2), id], sites + 1)

/-- `convert` -/
def convert (opts : AllocatorOptions) (chainDepth : ℕ) (tagged : Bool) (a : Ast) (sites : ℕ) :
    Ast × ℕ :=
  match ((((convertConcat opts.specEvalOrder a).or (convertTaggedTemplate a)).or
      (convertTemplateLiteral tagged a)).or (convertArraySpread a)).or (convertObjectSpread a) with
  | some b => (b, sites)
  | none =>
    match convertCallSpread opts chainDepth a sites with
    | some r => r
    | none => ((convertRestPattern opts.meterRestPattern a).getD a, sites)

section recur

variable (opts : AllocatorOptions)

mutual

/-- `recur`, with the chains around a node, and whether it is the template of a tag. -/
def recur (chainDepth : ℕ) (tagged : Bool) (sites : ℕ) : Ast → Ast × ℕ
  | .node l ks =>
    let inner := if l.type = .chainExpression then chainDepth + 1 else chainDepth
    let r := recurKids l inner sites ks
    convert opts chainDepth tagged (.node l r.1) r.2

def recurKids (l : Label) (chainDepth : ℕ) (sites : ℕ) :
    List (Field × Ast) → List (Field × Ast) × ℕ
  | [] => ([], sites)
  | k :: ks =>
    let r := recurKid l chainDepth sites k
    let rs := recurKids l chainDepth r.2 ks
    (r.1 :: rs.1, rs.2)

def recurKid (l : Label) (chainDepth : ℕ) (sites : ℕ) : Field × Ast → (Field × Ast) × ℕ
  | (field, a) =>
    let r := recur chainDepth (l.type = .taggedTemplateExpression && field = .quasi) sites a
    ((field, r.1), r.2)

end

end recur

/-- `transformAllocators` -/
def transformAllocators (opts : AllocatorOptions) (a : Ast) : Ast := (recur opts 0 false 0 a).1

end XChainSdk
