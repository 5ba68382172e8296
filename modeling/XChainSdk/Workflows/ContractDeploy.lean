import XChainSdk.Contract.ChunkHelper
import XChainSdk.Workflows.CrossChain

/-!
# Deploying a contract in several transactions

A recipe makes one submission after the other and keeps their results.  An error on the way brings
the results that are there as its `partial`.

* `Recipe` : a computation whose steps are submissions and whose errors come with what is kept.
* `withPartial` : the error that a recipe throws.
* `resolveDeployedContract` : the contract of a group of chunks, from the answers of the explorer.
* `deployAndFund`, `deployContract` : the two recipes.
-/

namespace XChainSdk

open Js

/-! ### Recipes -/

/-- What a recipe keeps. -/
structure DeployPartial where
  deploy : Option SubmitResult := none
  chunks : List SubmitResult := []
  deposits : List SubmitResult := []
  contractActionIndex : Js := .null

namespace DeployPartial

/-- The results in the order of their steps. -/
def results (p : DeployPartial) : List SubmitResult := p.chunks ++ p.deploy.toList ++ p.deposits

/-- `{ deploy, deposits }` -/
def fundEntry (p : DeployPartial) : Js :=
  .obj [("deploy", (p.deploy.map SubmitResult.entry).getD .null),
    ("deposits", .arr (p.deposits.map SubmitResult.entry))]

/-- `{ deploy, chunks, deposits, contractActionIndex }` -/
def deployEntry (p : DeployPartial) : Js :=
  .obj [("deploy", (p.deploy.map SubmitResult.entry).getD .null),
    ("chunks", .arr (p.chunks.map SubmitResult.entry)),
    ("deposits", .arr (p.deposits.map SubmitResult.entry)),
    ("contractActionIndex", p.contractActionIndex)]

end DeployPartial

/-- A computation whose actions are submissions; an error comes with what is kept. -/
abbrev Recipe (α : Type) := Traced (Js × DeployPartial) (Submit SubmitResult) α

/-- A submission of a recipe. -/
def Recipe.step (p : DeployPartial) (x : Submit SubmitResult) : Recipe SubmitResult :=
  .call x (x.outcome.mapError fun e => (e, p))

/-- Something that a recipe does between its submissions. -/
def Recipe.between {α : Type} (p : DeployPartial) (r : Except Js α) : Recipe α :=
  .lift (r.mapError fun e => (e, p))

/-- An error takes what is kept when it is an object without one that can be extended. -/
def attaches (frozen : Js → Bool) (e : Js) : Bool :=
  match e with
  | .obj _ => (e.field "partial").isUndef && !frozen e
  | _ => false

/-- The error with what is kept. -/
def attachPartial (frozen : Js → Bool) (kept e : Js) : Js :=
  if attaches frozen e then e.assign [("partial", kept)] else e

/-- `withPartial` -/
def withPartial (frozen : Js → Bool) (entry : DeployPartial → Js) (worker : Recipe DeployPartial) :
    Except Js DeployPartial :=
  worker.outcome.mapError fun (e, p) => attachPartial frozen (entry p) e

/-! ### The index of a contract -/

/-- `new Error(message)` -/
def plainError (message : String) : Js := .obj [("name", str "Error"), ("message", str message)]

/-- A member of what is not an object. -/
def typeError : Js := .obj [("name", str "TypeError")]

/-- `x.k`, which throws of nothing. -/
def memberOf (x : Js) (k : String) : Except Js Js :=
  match x.get k with
  | some v => .ok v
  | none => .error typeError

/-- `actionIndexOf` -/
def actionIndexOf (indexed : Js) : Except Js Js :=
  if !indexed.truthy then .ok .undefined
  else if !(indexed.field "action_index").isNullish then .ok (indexed.field "action_index")
  else
    match indexed.field "actions" with
    | .arr (a :: _) => memberOf a "action_index"
    | _ => .ok .undefined

/-- `/^word/i` -/
def startsWithWord (word text : String) : Bool :=
  (asciiLower text).toList.take word.length == word.toList

/-- `actionDetailOf`, behind the read. -/
def actionDetail (body : Js) : Js :=
  if !body.truthy then .null
  else
    let d := if (body.field "data").isNullish then body else body.field "data"
    let d := match d with
      | .arr rows => rows.headD .null
      | d => d
    match d with
    | .obj _ =>
      match d.field "action" with
      | .obj fs => if (Js.obj fs |>.field "action_index").isUndef then d else .obj fs
      | _ => d
    | .arr _ => d
    | _ => .null

/-- `deployedContractFailure` -/
def deployedContractFailure (assembler : Js) (status : String) : Js :=
  .obj [("name", str "Error"), ("message", str ("resolveDeployedContract: DEPLOY " ++
      assembler.toText ++ " deployed no contract: " ++ status)), ("status", str status),
    ("actionIndex", assembler)]

/-- What a detail says: the contract, or what was observed. -/
inductive Inspected where
  | contract (index : Js)
  | observed (status : Option String)

/-- `inspectDeploymentDetail` -/
def inspectDeploymentDetail (detail assembler : Js) : Except Js Inspected :=
  let fields := match detail with
    | .obj fs => fs.map Prod.fst
    | _ => []
  let index := detail.field "deployed_contract_index"
  let hasIndex := fields.contains "deployed_contract_index"
  let hasStatus := fields.contains "assembly_status"
  if hasIndex && !index.isNullish then .ok (.contract index)
  else if hasIndex || hasStatus then
    -- a group that is pending no more, and has no contract, never gets one
    let status := detail.field "assembly_status"
    if status.isNullish then .ok (.observed none)
    else if startsWithWord "pending" status.toText then .ok (.observed (some status.toText))
    else .error (deployedContractFailure assembler status.toText)
  else
    -- an older explorer reports the status of the assembler only
    let status := detail.field "status"
    let status := if status.isNullish then "" else status.toText
    if startsWithWord "valid" status then .ok (.contract assembler)
    else if startsWithWord "invalid" status then
      .error (deployedContractFailure assembler status)
    else .ok (.observed (if status = "" then none else some status))

/-- `deploymentTimeoutError` -/
def deploymentTimeoutError (assembler : Js) (timeout : ℕ) (observed : Option String)
    (lastError : Option Js) : Js :=
  .obj ([("name", str "Error"), ("message", str (
      "resolveDeployedContract: the explorer exposes no deployed_contract_index for DEPLOY " ++
        assembler.toText ++ " after " ++ natText timeout ++ "ms" ++
        (match observed with
          | some status => " (last status: " ++ status ++ ")"
          | none => "") ++
        (match lastError with
          | some e => " (last read error: " ++ (e.field "message").toText ++ ")"
          | none => ""))),
      ("status", (observed.map str).getD .null), ("actionIndex", assembler)] ++
    (lastError.map fun e => ("cause", e)).toList)

/-- `resolveDeployedContract`: the answers to the reads until the deadline. -/
def resolveDeployedContract (assembler : Js) (timeout : ℕ) :
    List (Except Js Js) → Option String → Option Js → Except Js Js
  | [], observed, lastError =>
    .error (deploymentTimeoutError assembler timeout observed lastError)
  | .error e :: reads, observed, _ =>
    resolveDeployedContract assembler timeout reads observed (if e.truthy then some e else none)
  | .ok body :: reads, observed, _ =>
    let detail := actionDetail body
    if !detail.truthy then resolveDeployedContract assembler timeout reads observed none
    else
      match inspectDeploymentDetail detail assembler with
      | .error e => .error e
      | .ok (.contract index) => .ok index
      | .ok (.observed status) =>
        resolveDeployedContract assembler timeout reads (status.or observed) none

/-! ### The recipes -/

/-- What a session and an explorer answer to the steps of a recipe. -/
structure DeployWorld where
  /-- `sdk.session` -/
  session : Except Js Unit
  /-- `nativeFeeEncoder` of the parameters of a deploy -/
  nativeFee : Js → Except Js Js
  /-- `session.deploy` -/
  deploy : Js → Js → Submit SubmitResult
  /-- `session.deployChunk` -/
  deployChunk : Js → Js → Submit SubmitResult
  /-- `session.deposit`, the first one, the second one and so on -/
  deposit : ℕ → Js → Submit SubmitResult
  timeout : ℕ
  reads : List (Except Js Js)
  /-- a thrown object that takes no new member -/
  frozen : Js → Bool

section Recipes

variable (W : DeployWorld)

/-- One deposit. -/
def depositLeg (contractActionIndex : Js) (p : DeployPartial) (leg : Js × ℕ) :
    Recipe DeployPartial := do
  let tick ← .between p (memberOf leg.1 "tick")
  let quantity ← .between p (memberOf leg.1 "quantity")
  let result ← .step p (W.deposit leg.2 (.obj [("contractActionIndex", contractActionIndex),
    ("tick", tick), ("quantity", quantity)]))
  return { p with deposits := p.deposits ++ [result] }

/-- The deposits, one after the other; without the index of the contract there are none. -/
def fundContract (recipe : String) (contractActionIndex : Js) (deposits : List Js)
    (p : DeployPartial) : Recipe DeployPartial :=
  if deposits = [] then pure p
  else if contractActionIndex.isNullish then
    .between p (.error (plainError (recipe ++
      ": DEPLOY action_index unavailable; submit with waitForIndexer enabled")))
  else deposits.zipIdx.foldlM (depositLeg W contractActionIndex) p

/-- The steps of `deployAndFund`. -/
def fundSteps (deployParams : Js) (deposits : List Js) : Recipe DeployPartial := do
  let deploy ← .step {} (W.deploy deployParams (.obj []))
  let p : DeployPartial := { deploy := some deploy }
  if deposits = [] then return p
  let contractActionIndex ← .between p (actionIndexOf deploy.indexed)
  fundContract W "deployAndFund" contractActionIndex deposits p

/-- `deployAndFund` -/
def deployAndFund (deployParams : Js) (deposits : List Js) : Except Js DeployPartial :=
  match W.session with
  | .error e => .error e
  | .ok () => withPartial W.frozen DeployPartial.fundEntry (fundSteps W deployParams deposits)

/-- What `prepareDeploy` returns: the plan, and the parameters of the assembling deploy. -/
structure PreparedDeploy where
  plan : DeployPlan
  assembleParams : Js

/-- The parameters of a chunk. -/
def chunkParams (plan : DeployPlan) (part : String) (i : ℕ) : List (String × Js) :=
  [("codeHash", str plan.codeHash), ("chunkIndex", .num (.fin i)),
    ("totalChunks", .num (.fin plan.totalChunks)), ("codePart", str part)]

/-- The carrier of one chunk. -/
def chunkLeg (plan : DeployPlan) (p : DeployPartial) (leg : String × ℕ) : Recipe DeployPartial := do
  let params := chunkParams plan leg.1 leg.2
  let encoderOpts ← .between p (W.nativeFee (.obj (params ++ [("VERSION", str "4")])))
  let result ← .step p (W.deployChunk (.obj params) encoderOpts)
  return { p with chunks := p.chunks ++ [result] }

/-- A deploy in one transaction. -/
def inlineSteps (deployParams : Js) : Recipe DeployPartial := do
  let encoderOpts ← .between {} (W.nativeFee deployParams)
  let deploy ← .step {} (W.deploy deployParams encoderOpts)
  let p : DeployPartial := { deploy := some deploy }
  let contractActionIndex ← .between p (actionIndexOf deploy.indexed)
  return { p with contractActionIndex }

/-- The assembling deploy, behind the carriers. -/
def assembleSteps (assembleParams : Js) (p : DeployPartial) : Recipe DeployPartial := do
  let encoderOpts ← .between p (W.nativeFee assembleParams)
  let deploy ← .step p (W.deploy assembleParams encoderOpts)
  let p := { p with deploy := some deploy }
  let assembler ← .between p (actionIndexOf deploy.indexed)
  if assembler.isNullish then return p
  let contractActionIndex ←
    .between p (resolveDeployedContract assembler W.timeout W.reads none none)
  return { p with contractActionIndex }

/-- `executeDeploy` -/
def executeDeploy (deployParams : Js) (deposits : List Js) (prepared : PreparedDeploy) :
    Recipe DeployPartial := do
  let p ← if prepared.plan.single then inlineSteps W deployParams
    else do
      let p ← (prepared.plan.parts.getD []).zipIdx.foldlM (chunkLeg W prepared.plan) {}
      assembleSteps W prepared.assembleParams p
  fundContract W "deployContract" p.contractActionIndex deposits p

/-- `deployContract`; what is prepared is prepared before anything is broadcast. -/
def deployContract (deployParams : Js) (deposits : List Js) (prepared : Except Js PreparedDeploy) :
    Except Js DeployPartial :=
  match W.session, prepared with
  | .error e, _ | .ok (), .error e => .error e
  | .ok (), .ok prepared =>
    withPartial W.frozen DeployPartial.deployEntry (executeDeploy W deployParams deposits prepared)

end Recipes

end XChainSdk
