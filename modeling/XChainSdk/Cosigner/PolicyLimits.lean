import XChainSdk.Cosigner.EvaluatePolicy

/-!
# What a policy limits

The meaning of a policy, read off its own tables and off the fields of an action, without the
look-ups of the evaluator.

* `CapOf` : the caps that bind a token in a table, with `ActionCap` and `WindowCapOf`.
* `Outflow`, `OUTFLOWS` : what the fields of a format say about the value that the account gives up.
* `TokensStated` : the tokens that an action gives up are stated by its own fields.
* `TokenOf`, `NamesDestination` : the token and the destinations that an action names.
-/

namespace XChainSdk

/-! ### Caps -/

/-- A table sets a cap under a key. -/
def Sets (t : CapTable) (key : String) (cap : Js) : Prop :=
  (key, cap) ∈ t.entries ∧ cap ≠ .undefined

/-- The caps that bind a token, or an amount without one: those set under its name, in letters `a` to
`z` of either case, and the one of the wildcard if there are none. -/
inductive CapOf (t : CapTable) (token : Option String) (cap : Js) : Prop
  | named (name key : String) (htoken : token = some name) (hkey : key ≠ "*")
      (hsame : asciiUpper key = asciiUpper name) (hset : Sets t key cap)
  | wildcard (hnone : ∀ name key other, token = some name → key ≠ "*" →
      asciiUpper key = asciiUpper name → ¬ Sets t key other) (hset : Sets t "*" cap)

/-- The caps of one action. -/
def ActionCap (policy : Policy) (action : String) (token : Option String) (cap : Js) : Prop :=
  ∃ tables t, policy.maxPerAction = some tables ∧ (action, t) ∈ tables.entries ∧ CapOf t token cap

/-- The caps of the window. -/
def WindowCapOf (policy : Policy) (token : Option String) (cap : Js) : Prop :=
  ∃ win t, policy.maxPerWindow = some win ∧ win.perTick = some t ∧ CapOf t token cap

/-- Amounts are limited: by action, in the window, or by a confirmation above some amount. -/
def LimitsAmounts (policy : Policy) : Prop :=
  policy.maxPerAction.isSome ∨
    (∃ win, policy.maxPerWindow = some win ∧ win.perTick.isSome) ∨ policy.confirmAbove.isSome

/-! ### Outflows -/

/-- Where a format names the token that it gives up: in a field, or nowhere if it is the gas token. -/
inductive OutflowToken where
  | field (name : String)
  | gas
  deriving DecidableEq

/-- What the fields of a format say about the value that the account gives up, fees aside. -/
inductive Outflow where
  /-- it gives up nothing -/
  | nothing
  /-- it gives up the sum of some fields, in one token -/
  | stated (amounts : List String) (token : OutflowToken)
  /-- it gives up native coin alone, as much as the object that it refers to asks for -/
  | native
  deriving DecidableEq

/-- The outflows.  A format that is missing gives up what another object, a set of holders, a
contract or the whole balance decides, or bundles several actions. -/
def OUTFLOWS : List (String × List (ℕ × Outflow)) := [
  ("ADDRESS", [(0, .nothing), (1, .nothing)]),
  ("BET", [(0, .nothing), (4, .nothing)]),
  ("BROADCAST", [(0, .nothing), (1, .nothing), (2, .nothing), (3, .nothing)]),
  ("COINPAY", [(0, .native)]),
  ("COLLECT", [(0, .nothing)]),
  ("DELEGATE", [(0, .nothing), (1, .nothing), (2, .nothing), (3, .nothing)]),
  ("DEPLOY", [(1, .nothing), (3, .nothing), (4, .nothing)]),
  ("DEPOSIT", [(0, .stated ["QUANTITY"] (.field "TICK"))]),
  ("DESTROY", [(0, .stated ["AMOUNT"] (.field "TICK"))]),
  ("DISPENSER", [(0, .stated ["GIVE_ESCROW"] (.field "GIVE_TICK"))]),
  ("FILE", [(0, .nothing)]),
  ("ISSUE", (List.range 8).map fun version => (version, .nothing)),
  ("LINK", [(0, .nothing)]),
  ("LIST", [(2, .nothing), (3, .nothing), (4, .nothing), (5, .nothing)]),
  ("MESSAGE", [(0, .nothing), (1, .nothing), (2, .nothing), (3, .nothing)]),
  ("MINT", [(0, .stated ["AMOUNT"] (.field "TICK"))]),
  ("ORDER", [(0, .stated ["GIVE_AMOUNT"] (.field "GIVE_TICK"))]),
  ("PRICE", [(1, .nothing)]),
  ("SEND", [(0, .stated ["AMOUNT"] (.field "TICK"))]),
  ("SLEEP", [(0, .nothing), (1, .nothing)]),
  ("STAKE", [(1, .stated ["AMOUNT"] .gas), (2, .stated ["AMOUNT"] .gas),
    (3, .stated ["AMOUNT"] (.field "TICK"))]),
  ("SWAP", [(0, .stated ["GIVE_AMOUNT"] (.field "GIVE_TICK"))]),
  ("UNSTAKE", [(0, .nothing), (1, .nothing)]),
  -- a vote's own `TICK` is the token that is voted with; what it escrows is gas
  ("VOTE", [(0, .stated ["DEPOSIT", "GAS_ESCROW"] .gas), (1, .nothing), (3, .nothing)]),
  ("WITHDRAW", [(0, .nothing)]),
  ("XBRIDGE", [(0, .stated ["AMOUNT"] .gas), (1, .stated ["AMOUNT"] .gas),
    (3, .stated ["AMOUNT"] (.field "TICK")), (4, .stated ["AMOUNT"] (.field "TICK"))])]

/-- The outflow of a format. -/
def outflowOf (action : String) (version : ℕ) : Option Outflow :=
  (OUTFLOWS.lookup action).bind fun versions => versions.lookup version

/-- The fields that hand over a token's ownership or supply, which no amount describes. -/
def HANDOVER_FIELDS : List String := ["GIVE_OWNERSHIP", "TRANSFER", "TRANSFER_SUPPLY"]

/-- A field holds a text. -/
def Holds (params : Params) (field s : String) : Prop := Js.member params field = .str s ∧ s ≠ ""

/-- The tokens that an action gives up are determined by its own fields. -/
def TokensStated (action : String) (version : ℕ) (params : Params) : Prop :=
  (outflowOf action version).isSome ∧ ∀ f ∈ HANDOVER_FIELDS, ∀ s, ¬ Holds params f s

/-- All that an action gives up is determined by its own fields, native coin included. -/
def OutflowStated (action : String) (version : ℕ) (params : Params) : Prop :=
  TokensStated action version params ∧ outflowOf action version ≠ some .native

/-- The amounts that some fields hold. -/
def heldAmounts (params : Params) (fields : List String) : List ℚ :=
  fields.filterMap fun f => (Js.member params f).str?.bind decimalText

/-! ### Names -/

/-- The token that a text names: `^id` is the first name that the policy lists with the id. -/
inductive TokenOf (policy : Policy) (s : String) : String → Prop
  | mapped (ids : Dict String Js) (pre post : List (String × Js)) (name : String) (v : Js)
      (hids : policy.tickIds = some ids) (hentries : ids.entries = pre ++ (name, v) :: post)
      (hid : s = "^" ++ v.toText) (hfirst : ∀ e ∈ pre, s ≠ "^" ++ e.2.toText) : TokenOf policy s name
  | plain (hnone : ∀ ids, policy.tickIds = some ids → ∀ e ∈ ids.entries, s ≠ "^" ++ e.2.toText) :
      TokenOf policy s s

/-- The format has a field for destinations. -/
def CarriesDestination (action : String) (version : ℕ) : Prop :=
  ∃ fields, getFormatFields action version = some fields ∧
    (.field "DESTINATION" ∈ fields ∨ .field "DESTINATIONS" ∈ fields)

/-- An action names a destination: it is one of those between the `;` of such a field. -/
def NamesDestination (params : Params) (d : String) : Prop :=
  ∃ f s, (f = "DESTINATION" ∨ f = "DESTINATIONS") ∧ Holds params f s ∧
    d ∈ (s.toList.splitOn ';').map String.ofList

end XChainSdk
