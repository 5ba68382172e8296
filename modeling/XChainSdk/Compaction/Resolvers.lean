import XChainSdk.Compaction.RefFields
import XChainSdk.Lib.WorkerPool
import XChainSdk.Preflight.FeeProjection

/-!
# The tick and the address resolver

Before an action is composed, names of tokens and addresses are replaced by the ids that an explorer
knows them under.  A lookup that fails or takes too long leaves the value as it is.

* `RefKind.resolve` : one value, by the cache and at most one lookup.
* `compactListTickItems`, `compactListItems` : the items of a list, several at a time.
* `TickResolver.resolveActionParams`, `AddressResolver.resolveActionParams` : the parameters of an
  action.
-/

namespace XChainSdk

open Js

/-! ### One value -/

/-- The ids that were looked up. -/
abbrev RefCache := Dict String String

/-- What an awaited lookup meets: the cache before it, what it comes to, and the cache after it.
Other lookups may settle in between. -/
structure Await where
  before : RefCache
  /-- `none` when the lookup fails or is not answered in time -/
  answer : Option Js
  after : RefCache

/-- What is looked up for one kind of reference. -/
structure RefKind where
  /-- texts that stay as they are -/
  kept : String → Bool
  /-- the key in the cache -/
  key : String → String
  /-- the member of an answer that holds the id -/
  idField : String

/-- The id of an answer, where it is a decimal number. -/
def readId (idField : String) (answer : Js) : Option String :=
  let info :=
    if answer.truthy then
      match answer with
      | .arr rows => ((rows.headD .undefined).or (.obj [])).field "info"
      | x => x.field "info"
    else answer
  if info.truthy && !(info.field idField).isNullish then
    let id := (info.field idField).toText
    if id.toList ≠ [] ∧ id.toList.all Char.isDigit then some id else none
  else none

/-- The id under a key of the cache, or else of the answer; the cache when it is known. -/
def lookupId (idField : String) (wired : Bool) (key : String) (w : Await) :
    RefCache × Option String :=
  match w.before.get? key with
  | some id => (w.before, some id)
  | none =>
    if wired then
      match w.answer.bind (readId idField) with
      | some id => (w.after.set key id, some id)
      | none => (w.after, none)
    else (w.before, none)

/-- What the options of the client say. -/
structure ResolverOptions where
  enabled : Bool
  /-- there is an explorer -/
  wired : Bool
  network : String

/-- `resolve` -/
def RefKind.resolve (k : RefKind) (opts : ResolverOptions) (w : Await) (value : Js) :
    RefCache × Js :=
  if !opts.enabled || value.isNullish || k.kept value.toText then (w.before, value)
  else
    match lookupId k.idField opts.wired (k.key value.toText) w with
    | (cache, some id) => (cache, .str ("^" ++ id))
    | (cache, none) => (cache, value)

/-- A text that is empty or refers to an id already. -/
def isReference (text : String) : Bool :=
  text == "" || text.toList.head? == some '^'

/-- Tokens, with names whose case does not matter. -/
def tickKind (H : Host) : RefKind := ⟨isReference, H.toLowerCase, "tick_id"⟩

/-- Addresses; that of a contract and the sentinel of a burn have no id. -/
def addressKind : RefKind where
  kept text := isReference text || (text.toList.head? == some 'C' && text.toList.contains ':') ||
    text == "BURN"
  key := id
  idField := "address_id"

/-! ### The items of a list -/

/-- A threshold and the explorer's last block, where its status can be read. -/
structure ActivationRead where
  threshold : Option ℚ
  coin : String
  /-- `none` when it cannot be read -/
  status : Option Js

/-- `status && status.last_block && status.last_block[explorer.coin]` -/
def ActivationRead.lastBlock (r : ActivationRead) : Js :=
  ((r.status.getD .undefined).getIf "last_block").getIf r.coin

/-- Whether an activation has come with the next block. -/
def ActivationRead.active (r : ActivationRead) : Bool :=
  match r.threshold, r.lastBlock with
  | some threshold, .num (.fin lastBlock) => decide (threshold ≤ lastBlock + 1)
  | _, _ => false

/-- `actionRecord` -/
def actionRecord (raw : Js) : Option Js :=
  if !raw.truthy then none
  else
    let record := match raw.field "data" with
      | .undefined => raw
      | data => data
    let record := match record with
      | .arr rows => (rows.headD .undefined).or .null
      | x => x
    match record with
    | .obj fs => some (.obj fs)
    | .arr xs => some (.arr xs)
    | _ => none

/-- `readParentListType` -/
def readParentListType (wired : Bool) (listActionIndex : Js) (answer : Option Js) : Js :=
  if !wired || listActionIndex.isNullish then .null
  else
    match answer.bind actionRecord with
    | some record => if (record.field "type").isNullish then
        (if (record.field "TYPE").isNullish then .null else record.field "TYPE")
      else record.field "type"
    | none => .null

/-- What the compaction of a list's items meets. -/
structure ListAwait where
  activation : ActivationRead
  /-- the record of the list that is edited -/
  parent : Option Js
  items : ℕ → Await
  moves : List WorkerPool.Move

/-- The list that is written, when its type is the one that is compacted. -/
def listTypeOf (H : Host) (data : Dict String Js) (wired : Bool) (w : ListAwait) : Js :=
  let keys := fieldKeys H data
  let named := (keys.get? "TYPE").map fun key => (data.get? key).getD .undefined
  match named.getD .null, keys.get? "LIST_ACTION_INDEX" with
  | .null, some key => readParentListType wired ((data.get? key).getD .undefined) w.parent
  | listType, _ => listType

/-- `mapWithLimit`; `none` while it is at work. -/
def mapWithLimit (limit : ℕ) (items : List Js) (fn : ℕ → Js → Js)
    (moves : List WorkerPool.Move) : Option (List Js) :=
  let pool := WorkerPool.run limit (fun i item => (.ok (fn i item) : Except Empty Js)) items moves
  (pool.bind (WorkerPool.outcome items)).bind Except.toOption

/-- The items under a key, each compacted; one item stays one. -/
def compactUnder (data : Dict String Js) (key : String) (fn : ℕ → Js → Js)
    (moves : List WorkerPool.Move) : Option (Dict String Js) :=
  match (data.get? key).getD .undefined with
  | .arr items => (mapWithLimit 8 items fn moves).map fun items => data.set key (.arr items)
  | item => (mapWithLimit 8 [item] fn moves).map fun items =>
      data.set key (items.headD .undefined)

def LIST_TICK_COIN_SEPARATOR : Char := ':'

def RESERVED_FUTURE_ROOTS : List String :=
  ["ADA", "ALGO", "APT", "ARB", "ATOM", "AVAX", "BCH", "BNB", "BSV", "BTG", "CRO", "DGB", "DOT",
    "EOS", "ETC", "ETH", "FIL", "FIRO", "GRS", "ICP", "INJ", "KAS", "MNT", "NEO", "NMC", "OP",
    "POL", "PPC", "RVN", "SEI", "SOL", "STX", "SUI", "TIA", "TON", "TRX", "VET", "VTC", "XCP",
    "XDP", "XEC", "XLM", "XMR", "XRP", "XTZ", "ZEC", "ZK", "BASE", "DASH", "HBAR", "HOOD", "HYPE",
    "NEAR"]

/-- An item of a list of tokens: the coin of the chain and the name on it. -/
structure TickCoinItem where
  coin : String
  rest : String

/-- `parseTickCoinItem` -/
def parseTickCoinItem (H : Host) : Js → Option TickCoinItem
  | .str text =>
    let before := text.toList.takeWhile (· != LIST_TICK_COIN_SEPARATOR)
    let behind := text.toList.dropWhile (· != LIST_TICK_COIN_SEPARATOR)
    let root := H.toUpperCase (String.ofList before)
    if before = [] ∨ behind = [] then none
    else if (FULL_NAME_TO_TICK.map Prod.snd).contains root || RESERVED_FUTURE_ROOTS.contains root then
      some ⟨root, String.ofList behind.tail⟩
    else none
  | _ => none

/-- The item with the coin as the chain spells it. -/
def TickCoinItem.canonical (p : TickCoinItem) : String := p.coin ++ ":" ++ p.rest

def isTickChar (c : Char) : Bool :=
  c.isAlphanum || "~!@#$%^&*()_+-=\x7b\x7d[]:<>.?".toList.contains c

/-- `isTickCoinRestWellFormed` of a name. -/
def TickCoinItem.wellFormed (p : TickCoinItem) : Bool :=
  decide (utf16Length p.canonical ≤ 200) && decide (1 ≤ utf16Length p.rest) &&
    decide (utf16Length p.rest ≤ 250) && p.rest.toList.all isTickChar

/-- `canonicalLookupId` of the text of an id. -/
def canonicalLookupId (id : String) : Option String :=
  if id.toList = [] ∨ id.toList.head? = some '0' ∨ !id.toList.all Char.isDigit then none
  else ((stringToNumber id).safeNat?).map fun _ => id

/-- Whether the explorers of the coins can be reached: the network is a coin's, on a known tier. -/
def hasCoinExplorers (H : Host) (opts : ResolverOptions) : Bool :=
  opts.wired &&
    match ((H.toLowerCase opts.network).toList.splitOn '-').map String.ofList with
    | [coin, tier] =>
      (FULL_NAME_TO_TICK.map Prod.fst).contains coin && COIN_NETWORKS.contains tier
    | _ => false

/-- The lookup of `createCoinTickLookup`; the cache is one for all coins. -/
def coinTickLookup (H : Host) (p : TickCoinItem) (w : Await) : RefCache × Option String :=
  lookupId "tick_id" true (p.coin ++ ":" ++ H.toLowerCase p.rest) w

/-- One item of `compactTickItems`. -/
def compactTickItem (H : Host) (w : Await) (item : Js) : Js :=
  match parseTickCoinItem H item with
  | none => item
  | some p =>
    if !(["BTC", "LTC", "DOGE"].contains p.coin) || p.rest.toList.head? == some '^' ||
        !p.wellFormed then item
    else
      match (coinTickLookup H p w).2.bind canonicalLookupId with
      | some id => .str (p.coin ++ ":^" ++ id)
      | none => item

/-- `compactListTickItems` -/
def compactListTickItems (H : Host) (opts : ResolverOptions) (data : Dict String Js)
    (w : ListAwait) : Option (Dict String Js) :=
  match (fieldKeys H data).get? "ITEM" with
  | none => some data
  | some itemKey =>
    if w.activation.active && (listTypeOf H data opts.wired w).toText == "1" &&
        hasCoinExplorers H opts then
      compactUnder data itemKey (fun i => compactTickItem H (w.items i)) w.moves
    else some data

/-- `compactListItems` -/
def compactListItems (H : Host) (opts : ResolverOptions) (data : Dict String Js)
    (w : ListAwait) : Option (Dict String Js) :=
  match (fieldKeys H data).get? "ITEM" with
  | none => some data
  | some itemKey =>
    if opts.wired && w.activation.active && (listTypeOf H data opts.wired w).toText == "2" then
      compactUnder data itemKey (fun i item => (addressKind.resolve opts (w.items i) item).2) w.moves
    else some data

/-! ### The parameters of an action -/

/-- What the parameters of one call meet, by their keys. -/
structure ParamsAwait where
  fields : String → Await
  list : ListAwait

/-- A value that a resolver leaves alone: none, or several. -/
def isSkipped : Js → Bool
  | .undefined | .null | .arr _ => true
  | _ => false

/-- Assigns to each key in turn. -/
def updateEach (data : Dict String Js) (f : String → Js → Js) : Dict String Js where
  entries := data.entries.map fun e => (e.1, f e.1 e.2)
  nodup := by simpa [List.map_map, Function.comp_def] using data.nodup

/-- The version that the resolver reads: that of the first key that spells it. -/
def issueVersion (H : Host) (data : Dict String Js) : Option String :=
  (data.entries.find? fun e => camelToUpperSnake H e.1 = "VERSION").map fun e => e.2.toText

/-- Whether a field of an action may be compacted to the id of a token. -/
def isTickRef (H : Host) (action : String) (data : Dict String Js) (key : String) : Bool :=
  let field := camelToUpperSnake H key
  TICK_REF_FIELDS.contains field &&
    !(action == "ISSUE" && field == "TICK" &&
      !((issueVersion H data).any ISSUE_TICK_COMPACT_FORMATS.contains))

/-- The objects of a call: the caller's, and the copy that is returned. -/
structure ParamsCall where
  params : Dict String Js
  out : Dict String Js

/-- `Object.assign({}, params)` -/
def ParamsCall.copy (params : Dict String Js) : ParamsCall := ⟨params, params⟩

namespace TickResolver

/-- `resolveActionParams` of `TickResolver`; `none` while it is at work. -/
def resolveActionParams (H : Host) (opts : ResolverOptions) (action : String)
    (params : Dict String Js) (w : ParamsAwait) : Option ParamsCall :=
  if !opts.enabled then some ⟨params, params⟩
  else
    let name := H.toUpperCase action
    let call := ParamsCall.copy params
    let out := if name = "LIST" then compactListTickItems H opts call.out w.list else some call.out
    out.map fun out => { call with
      out := updateEach out fun key value =>
        if isTickRef H name out key && !isSkipped value then
          ((tickKind H).resolve opts (w.fields key) value).2
        else value }

end TickResolver

namespace AddressResolver

/-- `resolveActionParams` of `AddressResolver`; `none` while it is at work. -/
def resolveActionParams (H : Host) (opts : ResolverOptions) (action : String)
    (params : Dict String Js) (w : ParamsAwait) : Option ParamsCall :=
  if !opts.enabled then some ⟨params, params⟩
  else
    let name := H.toUpperCase action
    let call := ParamsCall.copy params
    let out := if name = "LIST" then compactListItems H opts call.out w.list else some call.out
    out.map fun out => { call with
      out := updateEach out fun key value =>
        if (compactableOf name).contains (camelToUpperSnake H key) && !isSkipped value then
          (addressKind.resolve opts (w.fields key) value).2
        else value }

end AddressResolver

end XChainSdk
