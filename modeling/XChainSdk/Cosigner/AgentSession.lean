import XChainSdk.Cosigner.SignRequest

/-!
# Agent sessions

A session submits actions for an agent under a policy.  Submissions are served one after the other;
each is judged, confirmed if need be, recorded in a state file and only then handed to the inner
submission, which may fail at any point.  A row reads back from the file as it was written.

* `AgentRow`, `AgentConfig`, `Session` : the recorded rows, the policy, and a session with its file.
* `pruneRows`, `computeWindowUsage`, `evaluate` : the usage window, and the verdict on it.
* `authorizeSubmission`, `patchUsageTxid` : the rows of a submission.
* `agentStep` : one event: a call, the next await point of a submission, or a restart.
-/

namespace XChainSdk

/-- A row of the usage file, named by the submission that recorded it. -/
structure AgentRow where
  call : ℕ
  t : ℚ
  action : Js
  tick : Js
  amount : Js
  txid : Js
  key : Option String

/-- The row as the totals read it, without its txid. -/
def AgentRow.entry (r : AgentRow) : WindowEntry := ⟨r.t, r.action, r.tick, r.amount, .undefined⟩

/-- What is at the path of the usage file. -/
inductive AgentFile where
  | absent
  | unreadable
  | entries (rows : List AgentRow)

/-- The policy of a session. -/
structure AgentConfig where
  policy : Policy
  idempotencyHours : ℚ := 720
  allowUnkeyedSubmits : Bool := false

/-- A call of `submit`. -/
structure Submission where
  data : ActionData
  idempotencyKey : Js

/-- The await point that the running submission is at. -/
inductive Running where
  | idle
  /-- the confirmation handler was asked -/
  | confirming (sub : Submission) (e : Evaluation)
  /-- the inner submission was called -/
  | submitting (call : ℕ)

/-- What reached the inner submission. -/
structure LetThrough where
  entry : WindowEntry
  key : Option String

/-- A session, its usage file, and what it let through. -/
structure Session where
  file : AgentFile
  usage : Option (List AgentRow)
  queue : List Submission
  running : Running
  calls : ℕ
  log : List LetThrough

/-- The key of a submission, if it has one. -/
def Submission.key (sub : Submission) : Option String :=
  if sub.idempotencyKey.isNullish then none else some sub.idempotencyKey.toText

/-- An aged row keeps its key. -/
def AgentRow.compact (r : AgentRow) : AgentRow :=
  { r with action := .undefined, tick := .undefined, amount := .undefined }

/-- A row within the window stays, and one with a key stays as long as keys are remembered. -/
def keepRow (win : WindowRule) (keyHours now : ℚ) (r : AgentRow) : Option AgentRow :=
  if cutoff win.hours now ≤ r.t then some r
  else if r.key.isSome ∧ cutoff keyHours now ≤ r.t then some r.compact
  else none

/-- The rows that remain; without a window all do. -/
def pruneRows (cfg : AgentConfig) (now : ℚ) (rows : List AgentRow) : List AgentRow :=
  match cfg.policy.maxPerWindow with
  | some win => rows.filterMap (keepRow win cfg.idempotencyHours now)
  | none => rows

/-- The rows of the window. -/
def windowRows (cfg : AgentConfig) (now : ℚ) (rows : List AgentRow) : List AgentRow :=
  match cfg.policy.maxPerWindow with
  | some win => rows.filter fun r => live win.hours now r.entry
  | none => rows

namespace Session

/-- `loadUsage`: what is in memory, or in the file; a file that cannot be read throws. -/
def loadUsage (s : Session) : Option (List AgentRow) :=
  match s.usage, s.file with
  | some rows, _ => some rows
  | none, .absent => some []
  | none, .unreadable => none
  | none, .entries rows => some rows

/-- A new process, which knows the file alone. -/
def restart (s : Session) : Session :=
  { s with usage := none, queue := [], running := .idle }

/-- Writes the rows out.  They are in memory already, so a write that fails leaves them there. -/
def persistUsage (s : Session) (rows : List AgentRow) : WriteOutcome → Session
  | .written => { s with file := .entries rows, usage := some rows }
  | .failed => { s with usage := some rows }
  | .crashed renamed => { s with file := if renamed then .entries rows else s.file }.restart

end Session

variable (H : Host) (M : MathJs) (cfg : AgentConfig)

/-- Adds a row to the running totals; one that cannot be added throws. -/
def addUsage (perTick : Dict String String) (e : WindowEntry) : Option (Dict String String) :=
  if isUndefined e.amount then some perTick
  else
    (M.addDecimal ((perTick.get? (bucketOf e.tick)).getD "0") e.amount.toText).map fun total =>
      perTick.set (bucketOf e.tick) total

/-- The totals of some rows. -/
def usageOf (entries : List WindowEntry) : Option WindowUsage :=
  (entries.foldlM (addUsage M) Dict.empty).map fun perTick => ⟨entries.length, perTick⟩

/-- The usage of the window, with the session that remembers the pruned rows. -/
def computeWindowUsage (now : ℚ) (s : Session) : Session × Except Denial WindowUsage :=
  match s.loadUsage with
  | none => (s, deny "POLICY_STATE_CORRUPT")
  | some rows =>
    ({ s with usage := some (pruneRows cfg now rows) },
      match usageOf M ((windowRows cfg now (pruneRows cfg now rows)).map AgentRow.entry) with
      | some usage => .ok usage
      | none => .error .thrown)

/-- The window is read only when the policy has one. -/
def windowUsageFor (now : ℚ) (s : Session) : Session × Except Denial (Option WindowUsage) :=
  match cfg.policy.maxPerWindow with
  | none => (s, .ok none)
  | some _ =>
    match computeWindowUsage M cfg now s with
    | (s', .ok usage) => (s', .ok (some usage))
    | (s', .error d) => (s', .error d)

/-- The verdict on an action. -/
def evaluate (now : ℚ) (s : Session) (data : ActionData) : Session × Except Denial Evaluation :=
  match windowUsageFor M cfg now s with
  | (s', .error d) => (s', .error d)
  | (s', .ok usage) =>
    match evaluatePolicy H M cfg.policy data usage with
    | .ok e => (s', .ok e)
    | .error refusal => (s', .error (policyDenial refusal))

/-- A key is required, and is used once. -/
def checkKey (rows : List AgentRow) (key : Option String) : Except Denial Unit :=
  match key with
  | none =>
    if cfg.allowUnkeyedSubmits then .ok () else deny "POLICY_IDEMPOTENCY_REQUIRED"
  | some k =>
    if rows.any fun r => decide (r.key = some k) then deny "POLICY_DUPLICATE_SUBMIT" else .ok ()

/-- The row that `recordUsage` pushes. -/
def usageRow (now : ℚ) (call : ℕ) (e : Evaluation) (key : Option String) : AgentRow :=
  ⟨call, now, .str e.action, e.tick, e.amount, .null, key⟩

/-- What was recorded reaches the inner submission, unless its write failed. -/
def Session.letThrough (s : Session) (r : AgentRow) : WriteOutcome → Session
  | .written => { s with running := .submitting r.call, log := s.log ++ [⟨r.entry, r.key⟩] }
  | _ => s

/-- Records a submission and calls the inner one. -/
def authorizeSubmission (now : ℚ) (outcome : WriteOutcome) (s : Session) (sub : Submission)
    (e : Evaluation) : Session :=
  match s.loadUsage with
  | none => { s with running := .idle }
  | some rows =>
    match checkKey cfg (pruneRows cfg now rows) sub.key with
    | .error _ => { s with usage := some (pruneRows cfg now rows), running := .idle }
    | .ok _ =>
      let row := usageRow now s.calls e sub.key
      ({ s with calls := s.calls + 1, running := .idle }.persistUsage
        (pruneRows cfg now rows ++ [row]) outcome).letThrough row outcome

/-- The submission up to its first await point. -/
def enforceAndSubmit (now : ℚ) (halted : Bool) (outcome : WriteOutcome) (s : Session)
    (sub : Submission) : Session :=
  if halted then s
  else
    match evaluate H M cfg now s sub.data with
    | (s', .error _) => s'
    | (s', .ok e) =>
      if e.needsConfirmation then { s' with running := .confirming sub e }
      else authorizeSubmission cfg now outcome s' sub e

/-- A row that was compacted since is not the one recorded. -/
def patchRow (call : ℕ) (txid : String) (r : AgentRow) : AgentRow :=
  if r.call = call ∧ isUndefined r.action = false then { r with txid := .str txid } else r

/-- The txid of a submission is written into its row. -/
def patchUsageTxid (call : ℕ) (txid : Option String) (outcome : WriteOutcome) (s : Session) :
    Session :=
  match s.usage, txid with
  | some rows, some txid =>
    s.persistUsage (rows.map (patchRow call txid)) outcome
  | _, _ => s

/-- One event of a session. -/
inductive AgentOp where
  /-- a call, which waits for those before it -/
  | submit (sub : Submission)
  /-- the first submission that waits is judged; the kill switch is on or off -/
  | next (halted : Bool) (outcome : WriteOutcome)
  /-- the confirmation handler answers; one that throws denies -/
  | confirmed (answer : Bool) (outcome : WriteOutcome)
  /-- the inner submission ends, with a txid if one is known -/
  | settled (txid : Option String) (outcome : WriteOutcome)
  /-- a caller reads the usage of the window -/
  | read
  /-- the process ends, and another session starts on the file -/
  | restart

/-- One event. -/
def agentStep (s : Session) (event : ℚ × AgentOp) : Session :=
  match event.2, s.running, s.queue with
  | .submit sub, _, _ => { s with queue := s.queue ++ [sub] }
  | .next halted outcome, .idle, sub :: queue =>
    enforceAndSubmit H M cfg event.1 halted outcome { s with queue } sub
  | .confirmed answer outcome, .confirming sub e, _ =>
    if answer then authorizeSubmission cfg event.1 outcome s sub e else { s with running := .idle }
  | .settled txid outcome, .submitting call, _ =>
    patchUsageTxid call txid outcome { s with running := .idle }
  | .read, _, _ => (computeWindowUsage M cfg event.1 s).1
  | .restart, _, _ => s.restart
  | _, _, _ => s

/-- A run of sessions, one after the other, from an absent file. -/
def agentRun (events : List (ℚ × AgentOp)) : Session :=
  events.foldl (agentStep H M cfg) ⟨.absent, none, [], .idle, 0, []⟩

end XChainSdk
