import XChainSdk.Cosigner.EvaluatePolicy

/-!
# The window ledger

The co-signer's own record of what it authorized.  The rows live in memory and are written out as
one file on every charge; a file that cannot be read back is refused.  Faults that are only
reported, and the fields that only they read, are left out.

* `WindowEntry`, `Charge` : a row of the window and what a charge appends.
* `load`, `applyClockGuards`, `pruned` : the rows of a state file, and those within the window.
* `snapshot`, `snapshotExcludingTxid` : the totals that the evaluator is given.
* `Store`, `Op`, `step` : a store with its file, under calls, failed writes and restarts.
-/

namespace XChainSdk

/-- How far ahead of the clock a row may be dated. -/
def CLOCK_SKEW_TOLERANCE_MS : ℚ := 60 * 1000

/-- A row of the window. -/
structure WindowEntry where
  t : ℚ
  action : Js
  tick : Js
  amount : Js
  txid : Js

/-- What a charge appends. -/
structure Charge where
  action : String
  tick : Option String
  amount : Option String
  txid : Option String
  deriving DecidableEq

/-- A text, or `undefined`. -/
def jsOfOption (s : Option String) : Js := (s.map Js.str).getD .undefined

/-- The row of a charge. -/
def Charge.entry (c : Charge) (now : ℚ) : WindowEntry :=
  ⟨now, .str c.action, jsOfOption c.tick, jsOfOption c.amount, jsOfOption c.txid⟩

/-- The row as it is read back: members that are `undefined` are not written. -/
def storedRow (e : WindowEntry) : Js :=
  .obj ([("t", .num (.fin e.t)), ("action", e.action), ("tick", e.tick), ("amount", e.amount),
    ("txid", e.txid)].filter fun m => !isUndefined m.2)

/-- What is at the path of the state file. -/
inductive StateFile where
  | absent
  | unreadable
  | entries (rows : List Js)

section Ledger

variable (M : MathJs)

/-- `addDecimal('0', amount)` does not throw. -/
def addable (amount : Js) : Bool := isUndefined amount || (M.addDecimal "0" amount.toText).isSome

/-- A row of the file; `none` refuses the file. -/
def readRow (row : Js) : Option WindowEntry :=
  match row with
  | .obj fs =>
    match Js.member fs "t" with
    | .num (.fin t) =>
      if addable M (Js.member fs "amount") then
        some ⟨t, Js.member fs "action", Js.member fs "tick", Js.member fs "amount",
          Js.member fs "txid"⟩
      else none
    | _ => none
  | _ => none

/-- A row dated in the future is kept, dated now. -/
def clampRow (now : ℚ) (e : WindowEntry) : WindowEntry :=
  if now + CLOCK_SKEW_TOLERANCE_MS < e.t then { e with t := now } else e

/-- The rows of a file under this clock. -/
def applyClockGuards (now : ℚ) (entries : List WindowEntry) : List WindowEntry := entries.map (clampRow now)

/-- Why a store does not start. -/
inductive LoadError where
  | WINDOW_STATE_MISSING
  | WINDOW_STATE_CORRUPT

/-- The rows of the state file.  An absent file is an empty window only on request. -/
def load (init : Bool) (now : ℚ) : StateFile → Except LoadError (List WindowEntry)
  | .absent => if init then .ok [] else .error .WINDOW_STATE_MISSING
  | .unreadable => .error .WINDOW_STATE_CORRUPT
  | .entries rows =>
    match rows.mapM (readRow M) with
    | some entries => .ok (applyClockGuards now entries)
    | none => .error .WINDOW_STATE_CORRUPT

/-- Start of the window. -/
def cutoff (hours now : ℚ) : ℚ := now - hours * 3600 * 1000

/-- The row is within the window. -/
def live (hours now : ℚ) (e : WindowEntry) : Bool := decide (cutoff hours now ≤ e.t)

/-- The rows within the window. -/
def pruned (hours now : ℚ) (entries : List WindowEntry) : List WindowEntry := entries.filter (live hours now)

/-- The key that a row accumulates under. -/
def bucketOf (tick : Js) : String :=
  if tick.isNullish then UNRESOLVED_TICK_BUCKET else tick.toText

/-- Adds a row to the running totals; one that cannot be added is set aside. -/
def accumulate (perTick : Dict String String) (e : WindowEntry) : Dict String String :=
  if isUndefined e.amount then perTick
  else
    match M.addDecimal ((perTick.get? (bucketOf e.tick)).getD "0") e.amount.toText with
    | some total => perTick.set (bucketOf e.tick) total
    | none => perTick

/-- The totals of some rows. -/
def totals (entries : List WindowEntry) : WindowUsage :=
  ⟨entries.length, entries.foldl (accumulate M) Dict.empty⟩

/-- The row carries this txid. -/
def hasTxid (txid : String) (e : WindowEntry) : Bool := decide (e.txid.str? = some txid)

/-- The window as the evaluator is given it, from rows that are pruned. -/
def snapshot (excludeTxid : Option String) (entries : List WindowEntry) : WindowUsage :=
  totals M (match excludeTxid with
    | some txid => entries.filter fun e => !hasTxid txid e
    | none => entries)

/-- The window without the charge of one transaction, with the rows that remain; there is none when
no row carries the txid. -/
def snapshotExcludingTxid (hours now : ℚ) (txid : Option String) (entries : List WindowEntry) :
    List WindowEntry × Option WindowUsage :=
  match txid with
  | none | some "" => (entries, none)
  | some t =>
    let live := pruned hours now entries
    (live, if live.any (hasTxid t) then some (snapshot M (some t) live) else none)

/-! ### The store -/

/-- How a write of the state file ends. -/
inductive WriteOutcome where
  /-- the file is replaced -/
  | written
  /-- the write throws before the file is replaced -/
  | failed
  /-- the process dies, before or after the file is replaced -/
  | crashed (renamed : Bool)

/-- A state file and the rows that a running store holds. -/
structure Store where
  file : StateFile
  memory : Option (List WindowEntry)

/-- One thing that happens to a store. -/
inductive Op where
  /-- `record`; the lock is still ours or not -/
  | record (charge : Charge) (owned : Bool) (outcome : WriteOutcome)
  | snapshot
  | snapshotExcludingTxid (txid : Option String)
  /-- stops what runs and starts a store on the file -/
  | restart (init : Bool) (outcome : WriteOutcome)

/-- What a caller gets back. -/
inductive Result where
  | returned
  | threw
  | usage (u : Option WindowUsage)

/-- The file that holds some rows. -/
def fileOf (entries : List WindowEntry) : StateFile := .entries (entries.map storedRow)

/-- Writes the rows out. -/
def persist (s : Store) (entries : List WindowEntry) : WriteOutcome → Store × Result
  | .written => (⟨fileOf entries, some entries⟩, .returned)
  | .failed => ({ s with memory := some entries }, .threw)
  | .crashed renamed => (⟨if renamed then fileOf entries else s.file, none⟩, .threw)

/-- Appends a charge.  The row is pushed before the write, so a write that fails leaves it in
memory. -/
def record (now : ℚ) (s : Store) (live : List WindowEntry) (charge : Charge) (outcome : WriteOutcome) :
    Store × Result :=
  if addable M (charge.entry now).amount then persist s (live ++ [charge.entry now]) outcome
  else ({ s with memory := some live }, .threw)

/-- Starts a store on the file. -/
def start (init : Bool) (now : ℚ) (file : StateFile) (outcome : WriteOutcome) : Store × Result :=
  match load M init now file, file with
  | .error _, _ => (⟨file, none⟩, .threw)
  | .ok entries, .absent =>
    -- a store that cannot write its first file does not start
    match persist ⟨file, none⟩ entries outcome with
    | (s, .returned) => (s, .returned)
    | (s, _) => ({ s with memory := none }, .threw)
  | .ok entries, _ => (⟨file, some entries⟩, .returned)

/-- One step at the time `now`. -/
def step (hours : ℚ) (s : Store) (now : ℚ) : Op → Store × Result
  | .restart init outcome => start M init now s.file outcome
  | op =>
    match s.memory with
    | none => (s, .threw)
    | some entries =>
      match op with
      | .record charge owned outcome =>
        if owned then record M now s (pruned hours now entries) charge outcome else (s, .threw)
      | .snapshotExcludingTxid txid =>
        let (rows, usage) := snapshotExcludingTxid M hours now txid entries
        ({ s with memory := some rows }, .usage usage)
      | _ =>
        let rows := pruned hours now entries
        ({ s with memory := some rows }, .usage (some (snapshot M none rows)))

end Ledger

end XChainSdk
