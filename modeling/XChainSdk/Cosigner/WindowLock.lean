import XChainSdk.Cosigner.WindowLedger
import XChainSdk.Lib.Runs
import Mathlib.Logic.Function.Basic

/-!
# The lock of the window store

Stores that start on one state file take turns by a lock file.  A file system call is one step of
one store, and the steps of all stores interleave; what a call finds, when it is not the state of
the files, is chosen by the environment.

* `Row`, `Pc`, `Proc`, `World` : the rows, the stores with what each does next, and the files.
* `acquireStep`, `reclaimStep`, `ledgerStep`, `releaseStep` : the next call of a store.
* `step` : one event: a call, the start of an operation, or the end of a process.
-/

namespace XChainSdk

open Function (update)

/-- A row, numbered by the call of `record` that wrote it, so that equal rows are told apart. -/
structure Row where
  call : ℕ
  entry : WindowEntry

/-- What a write of the state file is for: the empty window of a new file, or a charge. -/
inductive WriteTask where
  | init
  | record (row : Row)

/-- The row whose `record` returns with the write. -/
def WriteTask.rows : WriteTask → List Row
  | .init => []
  | .record row => [row]

/-- What a store does next.  `last` says that this is the second attempt to take the lock, and
`holder` is the store whose record was read at the lock's name. -/
inductive Pc where
  /-- not started -/
  | idle
  /-- `publishLock` hardlinks the record to the lock's name -/
  | linking (last : Bool)
  /-- the mount has no hardlinks: the lock is created empty, and then written -/
  | creating (last : Bool)
  | filling
  /-- `acquireLock` reads the holder's record -/
  | reading (last : Bool)
  /-- and probes its process -/
  | probing (last : Bool) (holder : ℕ)
  /-- `reclaimStaleLock` renames the lock to a name of its own -/
  | carrying (last : Bool) (holder : ℕ)
  /-- reads what it carried away, and probes its process again -/
  | checking (last : Bool) (holder : ℕ)
  | reprobing (last : Bool)
  | discarding (last : Bool)
  /-- links it back, when it is not the record that was read -/
  | restoring
  /-- or renames it back, when there are no hardlinks and the name is free -/
  | looking
  | puttingBack
  /-- and removes its own name for it, when the lock's name is taken -/
  | finding
  | dropping
  /-- `load` reads the state file -/
  | loading
  /-- the constructor returned, and no call is running -/
  | ready
  /-- `record` checks the lock -/
  | owning (call : ℕ) (charge : Charge)
  /-- `persist` checks the lock again, writes a temporary file and renames it -/
  | fencing (task : WriteTask)
  | writing (task : WriteTask)
  | replacing (task : WriteTask)
  /-- `release` reads the lock, and removes it -/
  | releasing (constructed : Bool)
  | unlinking (constructed : Bool)
  /-- the constructor threw -/
  | failed

/-- A store: its process is alive, `_lockFile` is set, and `_usage.entries`. -/
structure Proc where
  pc : Pc
  live : Bool
  holding : Bool
  rows : List Row

/-- What is at the path of the state file. -/
inductive WindowFile where
  | absent
  | unreadable
  | rows (rows : List Row)

/-- The files, and the stores.  A lock file is named by the store that wrote it, as its nonce does;
`filled` says that its record is complete.  What returned and what aged out is listed beside. -/
structure World where
  lock : Option ℕ
  filled : ℕ → Bool
  carried : ℕ → Option ℕ
  tmp : Option (List Row)
  file : WindowFile
  procs : ℕ → Proc
  calls : ℕ
  returned : List Row
  aged : List ℕ

/-- What a call finds that is not in the files. -/
structure Env where
  /-- the mount has hardlinks -/
  links : Bool := true
  /-- `kill(pid, 0)` finds a process -/
  alive : Bool := false
  /-- the call throws -/
  throws : Bool := false
  now : ℚ := 0

/-- How the stores are configured: process, `init` option and length of the window. -/
structure Starters where
  pid : ℕ → ℕ
  init : ℕ → Bool
  hours : ℚ

namespace World

/-- Changes one store. -/
def setProc (w : World) (i : ℕ) (p : Proc) : World := { w with procs := update w.procs i p }

@[simp] theorem setProc_self (w : World) (i : ℕ) (p : Proc) : (w.setProc i p).procs i = p := by
  simp [setProc]

theorem setProc_of_ne (w : World) {i j : ℕ} (p : Proc) (h : j ≠ i) :
    (w.setProc i p).procs j = w.procs j := by
  simp [setProc, h]

/-- Where a store goes next. -/
def goto (w : World) (i : ℕ) (pc : Pc) : World := w.setProc i { w.procs i with pc }

/-- The second attempt, or none. -/
def retry (w : World) (i : ℕ) : Bool → World
  | false => w.goto i (.linking true)
  | true => w.goto i .failed

/-- `lockIsOurs`: nothing is known of a record that cannot be read. -/
def lockIsOurs (w : World) (i : ℕ) : Option Bool :=
  match w.lock with
  | none => some false
  | some k => if w.filled k then some (k == i) else none

/-- `assertLockOwned` throws: the store has a lock file and it is provably another's. -/
def fenced (w : World) (i : ℕ) : Bool :=
  (w.procs i).holding && decide (w.lockIsOurs i = some false)

/-- The lock is taken, with its record. -/
def hold (w : World) (i : ℕ) : World :=
  { w with filled := update w.filled i true }.setProc i
    { w.procs i with pc := .loading, holding := true }

/-- Where a store goes without its lock. -/
def letGo (w : World) (i : ℕ) (constructed : Bool) : World :=
  w.setProc i { w.procs i with holding := false, pc := if constructed then .ready else .failed }

/-- A write of the state file that throws. -/
def giveUp (w : World) (i : ℕ) : WriteTask → World
  | .init => w.goto i (.releasing false)
  | .record _ => w.goto i .ready

/-- `pruned`: the rows within the window stay in memory. -/
def prune (w : World) (hours now : ℚ) (i : ℕ) : World :=
  { w with
    aged := w.aged ++
      ((w.procs i).rows.filter fun (r : Row) => !live hours now r.entry).map Row.call }.setProc i
    { w.procs i with rows := (w.procs i).rows.filter fun r => live hours now r.entry }

/-- A row is pushed, and is to be written. -/
def push (w : World) (i : ℕ) (r : Row) : World :=
  w.setProc i
    { w.procs i with rows := (w.procs i).rows ++ [r], pc := .fencing (.record r) }

end World

variable (S : Starters)

/-- The next call of `release`. -/
def releaseStep (w : World) (i : ℕ) : Pc → World
  | .releasing constructed =>
    if w.lockIsOurs i = some false then w.letGo i constructed
    else w.goto i (.unlinking constructed)
  | .unlinking constructed => { w with lock := none }.letGo i constructed
  | _ => w

/-- The next call of `load`, `record` or `persist`. -/
def ledgerStep (w : World) (i : ℕ) (env : Env) : Pc → World
  | .loading =>
    if env.throws then w.goto i (.releasing false)
    else
      match w.file with
      | .absent =>
        if S.init i then w.setProc i { w.procs i with rows := [], pc := .fencing .init }
        else w.goto i (.releasing false)
      | .unreadable => w.goto i (.releasing false)
      | .rows rows => w.setProc i
          { w.procs i with
            rows := rows.map fun r => { r with entry := clampRow env.now r.entry }
            pc := .ready }
  | .owning call charge =>
    if w.fenced i then w.goto i .ready
    -- an amount that cannot be added is refused before the row is pushed
    else if env.throws then (w.prune S.hours env.now i).goto i .ready
    else (w.prune S.hours env.now i).push i ⟨call, charge.entry env.now⟩
  | .fencing task =>
    if env.throws || w.fenced i then w.giveUp i task else w.goto i (.writing task)
  | .writing task =>
    if env.throws then w.giveUp i task
    else { w with tmp := some (w.procs i).rows }.goto i (.replacing task)
  | .replacing task =>
    if env.throws then w.giveUp i task
    else
      match w.tmp with
      | none => w.giveUp i task
      | some rows =>
        { w with tmp := none, file := .rows rows, returned := w.returned ++ task.rows }.goto i .ready
  | pc => releaseStep w i pc

/-- The next call of `reclaimStaleLock`. -/
def reclaimStep (w : World) (i : ℕ) (env : Env) : Pc → World
  | .carrying last holder =>
    if env.throws then w.retry i last
    else
      match w.lock with
      | none => w.retry i last
      | some k =>
        { w with lock := none, carried := update w.carried i (some k) }.goto i
          (.checking last holder)
  | .checking last holder =>
    match w.carried i with
    | some k =>
      if w.filled k ∧ S.pid k = S.pid holder then w.goto i (.reprobing last)
      else w.goto i .restoring
    | none => w.goto i .restoring
  | .reprobing last =>
    if env.alive then w.goto i .restoring else w.goto i (.discarding last)
  | .discarding last => { w with carried := update w.carried i none }.retry i last
  | .restoring =>
    if env.links then
      match w.lock with
      | none => { w with lock := w.carried i }.goto i .dropping
      | some _ => w.goto i .finding
    else w.goto i .looking
  | .looking => if w.lock.isSome then w.goto i .finding else w.goto i .puttingBack
  | .puttingBack =>
    if env.throws then w.goto i .finding
    else { w with lock := w.carried i, carried := update w.carried i none }.goto i .dropping
  | .finding => if w.lock.isSome then w.goto i .dropping else w.goto i .failed
  | .dropping => { w with carried := update w.carried i none }.goto i .failed
  | pc => ledgerStep S w i env pc

/-- The next call of `acquireLock`. -/
def acquireStep (w : World) (i : ℕ) (env : Env) : Pc → World
  | .idle => w.goto i (.linking false)
  | .linking last =>
    if env.throws then w.goto i .failed
    else if env.links then
      match w.lock with
      | none => { w with lock := some i }.hold i
      | some _ => w.goto i (.reading last)
    else w.goto i (.creating last)
  | .creating last =>
    if env.throws then w.goto i .failed
    else
      match w.lock with
      | none => { w with lock := some i, filled := update w.filled i false }.goto i .filling
      | some _ => w.goto i (.reading last)
  | .filling => if env.throws then w.goto i .failed else w.hold i
  | .reading last =>
    -- a holder that cannot be read is not proof that the lock is stale
    match w.lock with
    | some k => if w.filled k then w.goto i (.probing last k) else w.goto i .failed
    | none => w.goto i .failed
  | .probing last holder =>
    if env.alive then w.goto i .failed else w.goto i (.carrying last holder)
  | pc => reclaimStep S w i env pc

/-- The next call of a store. -/
def nextCall (w : World) (i : ℕ) (env : Env) : World := acquireStep S w i env (w.procs i).pc

/-- One event of a store. -/
inductive StoreEvent where
  | call (env : Env)
  /-- a charge, a read of the window and a release are started between calls only -/
  | record (charge : Charge)
  | snapshot (now : ℚ)
  | release
  /-- the process exits, and its hook removes the lock by name -/
  | exit
  /-- the process dies without its hook -/
  | crash

/-- One event. -/
def stepWorld (w : World) (e : ℕ × StoreEvent) : World :=
  if (w.procs e.1).live then
    match e.2, (w.procs e.1).pc with
    | .call env, _ => nextCall S w e.1 env
    | .record charge, .ready =>
      { w with calls := w.calls + 1 }.goto e.1 (.owning w.calls charge)
    | .snapshot now, .ready => w.prune S.hours now e.1
    | .release, .ready =>
      if (w.procs e.1).holding then w.goto e.1 (.releasing true) else w
    | .exit, .ready =>
      { w with lock := if (w.procs e.1).holding then none else w.lock }.setProc e.1
        { w.procs e.1 with live := false }
    | .crash, _ => w.setProc e.1 { w.procs e.1 with live := false }
    | _, _ => w
  else w

/-- A stale lock that a dead store left, and stores that start. -/
def World.start (stale : ℕ) (filled : Bool) (file : WindowFile) : World where
  lock := some stale
  filled := fun _ => filled
  carried := fun _ => none
  tmp := none
  file := file
  procs := fun i =>
    if i = stale then ⟨.failed, false, false, []⟩ else ⟨.idle, true, false, []⟩
  calls := 0
  returned := []
  aged := []

end XChainSdk
