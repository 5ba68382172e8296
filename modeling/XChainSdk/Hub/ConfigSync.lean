import XChainSdk.Hub.ConfigTree

/-!
# Following the configuration of the hubs

A connector asks the hubs for their configuration, one after the other until one answers, and keeps
the tree and the time up to which it has it; the next time it asks only for what has changed.
Several calls can be under way.

* `HubTable` : the rows of a hub; `HubTable.upsert` changes one.
* `HubConnector` : what the calls share.
* `syncStep` : one step of a call, or of a hub.
* `Returned` : what a call returns, with the rows that the hub had when it answered.
-/

namespace XChainSdk

open Js

/-! ### The hubs -/

/-- The rows of a hub. -/
abbrev HubTable := Dict ConfigPath ConfigRow

/-- The newest time of rows. -/
def maxUpdatedAt (rows : List (ConfigPath × ConfigRow)) : ℕ :=
  rows.foldr (fun row t => max row.2.updatedAt t) 0

def HubTable.watermark (T : HubTable) : ℕ := maxUpdatedAt T.entries

/-- The rows at or after a cursor. -/
def HubTable.since (T : HubTable) (cursor : ℕ) : List (ConfigPath × ConfigRow) :=
  T.entries.filter fun row => cursor ≤ row.2.updatedAt

/-- A row is written; times do not decrease. -/
def HubTable.upsert (T : HubTable) (p : ConfigPath) (row : ConfigRow) : HubTable :=
  if T.watermark ≤ row.updatedAt then T.set p row else T

/-- The envelope of an answer; an old hub has no watermark. -/
structure ConfigResult where
  configs : Js
  seq : ℕ
  watermark : Option ℕ

/-- An answer: the cursor that was asked, and the rows of the hub when it answered. -/
structure Served where
  since : ℕ
  table : HubTable
  seq : ℕ

/-- What the hub sends. -/
def Served.result (a : Served) : ConfigResult where
  configs := treeOf (a.table.since a.since)
  seq := a.seq
  watermark := some (maxUpdatedAt (a.table.since a.since))

/-! ### The connector -/

structure HubConnector where
  lastGoodIdx : ℕ := 0
  lastSeq : ℕ := 0
  lastWatermark : ℕ := 0
  configs : Option Js := none
  watermarkEndpointIdx : Option ℕ := none

/-- `hubConfigRegressed`: a zero watermark is an empty table and does not count. -/
def HubConnector.hubConfigRegressed (c : HubConnector) (result : ConfigResult) : Bool :=
  match result.watermark with
  | none => false
  | some watermark =>
    (0 < watermark && watermark < c.lastWatermark) || (0 < c.lastSeq && result.seq < c.lastSeq)

/-- The cache is dropped. -/
def HubConnector.drop (c : HubConnector) : HubConnector :=
  { c with lastWatermark := 0, configs := none }

/-- A delta is folded into the cache when there is one and a cursor was sent. -/
def HubConnector.merges (c : HubConnector) : Bool :=
  decide (0 < c.lastWatermark) && c.configs.isSome

/-- The tree of `applyConfigResult`. -/
def HubConnector.appliedTree (c : HubConnector) (result : ConfigResult) : Js :=
  match result.watermark, c.configs with
  | some _, some base => if c.merges then mergeConfigDelta base result.configs else result.configs
  | _, _ => result.configs

/-- `applyConfigResult`, and what `getAllConfig` sets after it. -/
def HubConnector.applyConfigResult (c : HubConnector) (idx : ℕ) (result : ConfigResult) :
    HubConnector where
  lastGoodIdx := idx
  lastSeq := result.seq
  lastWatermark := result.watermark.getD 0
  configs := some (c.appliedTree result)
  watermarkEndpointIdx := some idx

/-! ### The calls -/

/-- Where a call of `getAllConfig` is, with the number of its attempt. -/
inductive ConfigCall where
  /-- a hub is asked; its answer may be under way -/
  | asking (attempt idx since : ℕ) (cursorValid : Bool) (answer : Option Served)
  /-- a hub that has regressed is asked for the full tree -/
  | refetching (attempt idx : ℕ) (answer : Option Served)
  /-- the answer is taken, and `getAllConfig` goes on with it -/
  | resuming (attempt idx : ℕ) (answer : Served)
  | done
  | failed

/-- What a call returns. -/
structure Returned where
  tree : Js
  endpoint : ℕ
  /-- the endpoint of the tree that the answer was merged into -/
  base : Option ℕ
  table : HubTable

structure SyncState where
  connector : HubConnector := {}
  /-- the endpoint and the rows that the cached tree is the tree of -/
  cached : Option (ℕ × HubTable) := none
  hubs : ℕ → HubTable := fun _ => Dict.empty
  calls : ℕ → Option ConfigCall := fun _ => none
  returned : List Returned := []

inductive SyncEvent where
  | call (c : ℕ)
  /-- the hub that a call asks answers with its rows -/
  | serve (c seq : ℕ)
  /-- the answer arrives -/
  | arrive (c : ℕ)
  /-- the request throws, or its answer is an error or has no result -/
  | fail (c : ℕ)
  | resume (c : ℕ)
  | upsert (idx : ℕ) (p : ConfigPath) (row : ConfigRow)
  /-- a hub restarts with other rows -/
  | restore (idx : ℕ) (table : HubTable)

section Step

-- the number of endpoints
variable (n : ℕ)

def SyncState.setCall (s : SyncState) (c : ℕ) (call : ConfigCall) : SyncState :=
  { s with calls := Function.update s.calls c (some call) }

/-- The next attempt of a call: an endpoint and a cursor, which only its own endpoint is asked with;
one second is asked again. -/
def SyncState.attempt (s : SyncState) (c i : ℕ) : SyncState :=
  if i < n then
    let idx := (s.connector.lastGoodIdx + i) % n
    let cursorValid := decide (0 < s.connector.lastWatermark) &&
      s.connector.watermarkEndpointIdx == some idx
    let since := if cursorValid then s.connector.lastWatermark - 1 else 0
    s.setCall c (.asking i idx since cursorValid none)
  else s.setCall c .failed

/-- `getAllConfig` after `fetchConfigResult`. -/
def SyncState.fold (s : SyncState) (idx : ℕ) (a : Served) : SyncState :=
  { s with
    connector := s.connector.applyConfigResult idx a.result
    cached := some (idx, a.table)
    returned := s.returned ++ [{
      tree := s.connector.appliedTree a.result
      endpoint := idx
      base := if s.connector.merges then s.cached.map Prod.fst else none
      table := a.table }] }

def syncStep (s : SyncState) : SyncEvent → SyncState
  | .call c =>
    match s.calls c with
    | none => s.attempt n c 0
    | some _ => s
  | .serve c seq =>
    match s.calls c with
    | some (.asking i idx since cursorValid none) =>
      s.setCall c (.asking i idx since cursorValid (some ⟨since, s.hubs idx, seq⟩))
    | some (.refetching i idx none) =>
      s.setCall c (.refetching i idx (some ⟨0, s.hubs idx, seq⟩))
    | _ => s
  | .arrive c =>
    match s.calls c with
    | some (.asking i idx _ cursorValid (some a)) =>
      if !cursorValid then
        -- a full tree replaces the cache
        { s with connector := s.connector.drop, cached := none }.setCall c (.resuming i idx a)
      else if s.connector.hubConfigRegressed a.result then
        { s with connector := s.connector.drop, cached := none }.setCall c (.refetching i idx none)
      else s.setCall c (.resuming i idx a)
    | some (.refetching i idx (some a)) => s.setCall c (.resuming i idx a)
    | _ => s
  | .fail c =>
    match s.calls c with
    | some (.asking i _ _ _ _) => s.attempt n c (i + 1)
    | some (.refetching i _ _) => s.attempt n c (i + 1)
    | _ => s
  | .resume c =>
    match s.calls c with
    | some (.resuming _ idx a) => (s.fold idx a).setCall c .done
    | _ => s
  | .upsert idx p row => { s with hubs := Function.update s.hubs idx ((s.hubs idx).upsert p row) }
  | .restore idx table => { s with hubs := Function.update s.hubs idx table }

def syncRun (s : SyncState) (es : List SyncEvent) : SyncState := es.foldl (syncStep n) s

end Step

end XChainSdk
