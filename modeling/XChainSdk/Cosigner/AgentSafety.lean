import XChainSdk.Cosigner.AgentSession
import XChainSdk.Cosigner.Respelling
import XChainSdk.Cosigner.WindowLimits
import XChainSdk.Lib.Runs

/-!
# What agent sessions guarantee

* `KeptBy`, `SessionInv` : a relation of the rows to what was let through, kept by every operation.
* `Remembered`, `Covered` : the keys that were used are among the rows, and so is the recent usage.
* `agentStep_inv` : one step keeps such a relation.
* `agent_safe` : a key is let through once while it is remembered, and in every interval of the
  window's length what was let through is within the limits.
-/

namespace XChainSdk

open SlidingWindow (recent within)

variable {H : Host} {M : MathJs} {cfg : AgentConfig} {now : ℚ} {s s' : Session}
  {log : List LetThrough} {rows : List AgentRow} {row : AgentRow} {outcome : WriteOutcome}
  {sub : Submission} {e : Evaluation} {Q : AgentRow → Prop}
  {P : ℚ → List LetThrough → List AgentRow → Prop}

/-- What is listed when a row is let through. -/
def AgentRow.through (r : AgentRow) : LetThrough := ⟨r.entry, r.key⟩

/-- Every operation on rows keeps the relation. -/
structure KeptBy (cfg : AgentConfig) (Q : AgentRow → Prop)
    (P : ℚ → List LetThrough → List AgentRow → Prop) : Prop where
  nil : ∀ {now}, P now [] []
  mono : ∀ {t now log rows}, t ≤ now → P t log rows → P now log rows
  prune : ∀ {now log rows}, P now log rows → P now log (pruneRows cfg now rows)
  push : ∀ {now log rows row}, P now log rows → row.t = now → Q row → P now log (rows ++ [row])
  record : ∀ {now log rows row}, P now log rows → row.t = now → Q row →
    P now (log ++ [row.through]) (rows ++ [row])
  patch : ∀ {now log rows} call txid, P now log rows → P now log (rows.map (patchRow call txid))

/-- The rows in memory and in the file are related to what was let through. -/
structure SessionInv (P : ℚ → List LetThrough → List AgentRow → Prop) (now : ℚ) (s : Session) :
    Prop where
  memory : ∀ rows, s.usage = some rows → P now s.log rows
  file : s.file = .absent ∧ P now s.log [] ∨ ∃ rows, s.file = .entries rows ∧ P now s.log rows

theorem SessionInv.loadUsage (h : SessionInv P now s) (hl : s.loadUsage = some rows) :
    P now s.log rows := by
  unfold Session.loadUsage at hl
  cases hu : s.usage with
  | some l =>
    simp only [hu, Option.some.injEq] at hl
    exact hl ▸ h.memory l hu
  | none =>
    rcases h.file with ⟨hf, hp⟩ | ⟨l, hf, hp⟩
    · simp only [hu, hf, Option.some.injEq] at hl
      exact hl ▸ hp
    · simp only [hu, hf, Option.some.injEq] at hl
      exact hl ▸ hp

theorem SessionInv.mono (hk : KeptBy cfg Q P) {t : ℚ} (ht : t ≤ now) (h : SessionInv P t s) :
    SessionInv P now s where
  memory := fun rows hu => hk.mono ht (h.memory rows hu)
  file := h.file.imp (fun hf => ⟨hf.1, hk.mono ht hf.2⟩)
    fun ⟨rows, hf, hp⟩ => ⟨rows, hf, hk.mono ht hp⟩

/-- Other rows in memory. -/
theorem SessionInv.setUsage (h : SessionInv P now s) (hfile : s'.file = s.file)
    (hlog : s'.log = s.log) (husage : s'.usage = s.usage ∨ s'.usage = none ∨
      ∃ rows, s'.usage = some rows ∧ P now s.log rows) : SessionInv P now s' where
  memory := by
    intro l hl
    rw [hlog]
    rcases husage with hu | hu | ⟨rows, hu, hp⟩
    · exact h.memory l (hu ▸ hl)
    · rw [hu] at hl
      cases hl
    · rw [hu, Option.some.injEq] at hl
      exact hl ▸ hp
  file := by
    rw [hfile, hlog]
    exact h.file

theorem SessionInv.persistUsage (h : SessionInv P now s) (hp : P now s.log rows)
    (outcome : WriteOutcome) : SessionInv P now (s.persistUsage rows outcome) := by
  cases outcome with
  | written => exact ⟨fun l hl => Option.some.inj hl ▸ hp, .inr ⟨rows, rfl, hp⟩⟩
  | failed => exact h.setUsage rfl rfl (.inr (.inr ⟨rows, rfl, hp⟩))
  | crashed renamed =>
    cases renamed with
    | true => exact ⟨fun l hl => (nomatch hl), .inr ⟨rows, rfl, hp⟩⟩
    | false => exact h.setUsage rfl rfl (.inr (.inl rfl))

theorem SessionInv.restart (h : SessionInv P now s) : SessionInv P now s.restart :=
  h.setUsage rfl rfl (.inr (.inl rfl))

/-- Reading the usage prunes the rows in memory. -/
theorem computeWindowUsage_inv (hk : KeptBy cfg Q P) (h : SessionInv P now s) :
    SessionInv P now (computeWindowUsage M cfg now s).1 := by
  unfold computeWindowUsage
  cases hl : s.loadUsage with
  | none => exact h
  | some rows =>
    exact h.setUsage rfl rfl (.inr (.inr ⟨_, rfl, hk.prune (h.loadUsage hl)⟩))

/-! ### One step -/

/-- What a step that lets nothing through does to the log and to the submission that runs. -/
structure Quiet (s s' : Session) : Prop where
  log : s'.log = s.log
  running : ∀ sub e, s'.running = .confirming sub e → s.running = .confirming sub e

/-- A submission is let through: its key is new among the rows. -/
structure Lets (cfg : AgentConfig) (now : ℚ) (s s' : Session) (sub : Submission) (e : Evaluation) :
    Prop where
  key : ∃ rows, s.loadUsage = some rows ∧ checkKey cfg (pruneRows cfg now rows) sub.key = .ok ()
  log : s'.log = s.log ++ [(usageRow now s.calls e sub.key).through]
  running : ∀ sub e, s'.running ≠ .confirming sub e

theorem authorizeSubmission_cases (s : Session) (sub : Submission) (e : Evaluation) :
    (Quiet s (authorizeSubmission cfg now outcome s sub e) ∧
      ∀ sub' e', (authorizeSubmission cfg now outcome s sub e).running ≠ .confirming sub' e') ∨
      Lets cfg now s (authorizeSubmission cfg now outcome s sub e) sub e := by
  unfold authorizeSubmission
  cases hl : s.loadUsage with
  | none => exact .inl ⟨⟨rfl, fun _ _ hr => nomatch hr⟩, fun _ _ hr => nomatch hr⟩
  | some rows =>
    dsimp only
    cases hc : checkKey cfg (pruneRows cfg now rows) sub.key with
    | error d => exact .inl ⟨⟨rfl, fun _ _ hr => nomatch hr⟩, fun _ _ hr => nomatch hr⟩
    | ok u =>
      cases outcome with
      | written => exact .inr ⟨⟨rows, hl, hc⟩, rfl, fun _ _ hr => nomatch hr⟩
      | failed => exact .inl ⟨⟨rfl, fun _ _ hr => nomatch hr⟩, fun _ _ hr => nomatch hr⟩
      | crashed renamed => exact .inl ⟨⟨rfl, fun _ _ hr => nomatch hr⟩, fun _ _ hr => nomatch hr⟩

/-- Recording a submission keeps the relation. -/
theorem authorizeSubmission_inv (hk : KeptBy cfg Q P) (h : SessionInv P now s)
    (hq : Q (usageRow now s.calls e sub.key)) :
    SessionInv P now (authorizeSubmission cfg now outcome s sub e) := by
  unfold authorizeSubmission
  cases hl : s.loadUsage with
  | none => exact h.setUsage rfl rfl (.inl rfl)
  | some rows =>
    have hp := hk.prune (h.loadUsage hl)
    dsimp only
    cases hc : checkKey cfg (pruneRows cfg now rows) sub.key with
    | error d => exact h.setUsage rfl rfl (.inr (.inr ⟨_, rfl, hp⟩))
    | ok u =>
      have hs : SessionInv P now { s with calls := s.calls + 1, running := .idle } :=
        h.setUsage rfl rfl (.inl rfl)
      cases outcome with
      | written =>
        have hrecord := hk.record hp rfl hq
        exact ⟨fun l hu => Option.some.inj hu ▸ hrecord, .inr ⟨_, rfl, hrecord⟩⟩
      | failed => exact (hs.persistUsage (hk.push hp rfl hq) .failed).setUsage rfl rfl (.inl rfl)
      | crashed renamed =>
        exact (hs.persistUsage (hk.push hp rfl hq) (.crashed renamed)).setUsage rfl rfl (.inl rfl)

theorem windowUsageFor_inv (hk : KeptBy cfg Q P) (h : SessionInv P now s) :
    SessionInv P now (windowUsageFor M cfg now s).1 := by
  have hread := computeWindowUsage_inv (M := M) hk h
  unfold windowUsageFor
  cases cfg.policy.maxPerWindow with
  | none => exact h
  | some win =>
    cases hc : computeWindowUsage M cfg now s with
    | mk s' r =>
      rw [hc] at hread
      cases r <;> exact hread

theorem evaluate_fst (data : ActionData) :
    (evaluate H M cfg now s data).1 = (windowUsageFor M cfg now s).1 := by
  unfold evaluate
  cases windowUsageFor M cfg now s with
  | mk s' r =>
    cases r with
    | error d => rfl
    | ok usage =>
      dsimp only
      cases evaluatePolicy H M cfg.policy data usage <;> rfl

/-- The first submission that waits is judged, with this verdict. -/
structure Judges (H : Host) (M : MathJs) (cfg : AgentConfig) (event : ℚ × AgentOp) (s : Session)
    (sub : Submission) (e : Evaluation) : Prop where
  op : ∃ halted outcome, event.2 = .next halted outcome
  idle : s.running = .idle
  verdict : ∃ queue, s.queue = sub :: queue ∧
    (evaluate H M cfg event.1 { s with queue } sub.data).2 = .ok e

/-- What one event does. -/
inductive Effect (H : Host) (M : MathJs) (cfg : AgentConfig) (event : ℚ × AgentOp)
    (s s' : Session) : Prop where
  | quiet (h : Quiet s s')
  /-- a submission was judged, and waits for its confirmation -/
  | asks (sub : Submission) (e : Evaluation) (hj : Judges H M cfg event s sub e)
    (hlog : s'.log = s.log) (hrunning : s'.running = .confirming sub e)
  /-- a submission was judged, and let through -/
  | lets (s₁ : Session) (sub : Submission) (queue : List Submission) (e : Evaluation)
    (hj : Judges H M cfg event s sub e)
    (hs₁ : s₁ = (windowUsageFor M cfg event.1 { s with queue }).1)
    (h : Lets cfg event.1 s₁ s' sub e)
  /-- a submission was confirmed, and let through -/
  | confirmed (sub : Submission) (e : Evaluation) (hrunning : s.running = .confirming sub e)
    (h : Lets cfg event.1 s s' sub e)

theorem computeWindowUsage_quiet (s : Session) :
    Quiet s (computeWindowUsage M cfg now s).1 := by
  unfold computeWindowUsage
  cases s.loadUsage with
  | none => exact ⟨rfl, fun _ _ hr => hr⟩
  | some rows => exact ⟨rfl, fun _ _ hr => hr⟩

theorem windowUsageFor_quiet (s : Session) : Quiet s (windowUsageFor M cfg now s).1 := by
  have hread : Quiet s (computeWindowUsage M cfg now s).1 := computeWindowUsage_quiet s
  unfold windowUsageFor
  cases cfg.policy.maxPerWindow with
  | none => exact ⟨rfl, fun _ _ hr => hr⟩
  | some win =>
    cases hc : computeWindowUsage M cfg now s with
    | mk s' r =>
      rw [hc] at hread
      cases r <;> exact hread

theorem enforceAndSubmit_effect {halted : Bool} {queue : List Submission}
    (hnext : s.queue = sub :: queue) (hidle : s.running = .idle) :
    Effect H M cfg (now, .next halted outcome) s
      (enforceAndSubmit H M cfg now halted outcome { s with queue } sub) := by
  unfold enforceAndSubmit
  cases halted with
  | true => exact .quiet ⟨rfl, fun _ _ hr => hr⟩
  | false =>
    simp only [Bool.false_eq_true, if_false]
    have hfst : (evaluate H M cfg now { s with queue } sub.data).1 =
        (windowUsageFor M cfg now { s with queue }).1 := evaluate_fst sub.data
    have hsame : Quiet { s with queue } (windowUsageFor M cfg now { s with queue }).1 :=
      windowUsageFor_quiet _
    rw [← hfst] at hsame
    cases hev : evaluate H M cfg now { s with queue } sub.data with
    | mk s₁ r =>
      rw [hev] at hfst hsame
      cases r with
      | error d => exact .quiet ⟨hsame.log, hsame.running⟩
      | ok e =>
        have hj : ∀ b, Judges H M cfg (now, .next b outcome) s sub e := fun b =>
          ⟨⟨b, outcome, rfl⟩, hidle, queue, hnext, by rw [hev]⟩
        dsimp only
        split_ifs with hconfirm
        · exact .asks sub e (hj _) hsame.log rfl
        · rcases authorizeSubmission_cases s₁ sub e with ⟨hq, -⟩ | hlets
          · exact .quiet ⟨hq.log.trans hsame.log, fun sub' e' hr =>
              hsame.running sub' e' (hq.running sub' e' hr)⟩
          · exact .lets s₁ sub queue e (hj _) hfst hlets

theorem patchUsageTxid_quiet (call : ℕ) (txid : Option String) (outcome : WriteOutcome)
    (s : Session) : Quiet s (patchUsageTxid call txid outcome { s with running := .idle }) := by
  unfold patchUsageTxid
  cases s.usage with
  | none => exact ⟨rfl, fun _ _ hr => nomatch hr⟩
  | some rows =>
    cases txid with
    | none => exact ⟨rfl, fun _ _ hr => nomatch hr⟩
    | some txid => cases outcome <;> exact ⟨rfl, fun _ _ hr => nomatch hr⟩

/-- One event has one of these effects. -/
theorem agentStep_effect (event : ℚ × AgentOp) :
    Effect H M cfg event s (agentStep H M cfg s event) := by
  obtain ⟨now, op⟩ := event
  unfold agentStep
  dsimp only
  split
  · exact .quiet ⟨rfl, fun _ _ hr => hr⟩
  · next hidle hnext => exact enforceAndSubmit_effect hnext hidle
  · next answer outcome sub e hrunning =>
    split_ifs
    · rcases authorizeSubmission_cases s sub e with ⟨hq, -⟩ | hlets
      · exact .quiet hq
      · exact .confirmed sub e hrunning hlets
    · exact .quiet ⟨rfl, fun _ _ hr => nomatch hr⟩
  · next txid outcome call _ => exact .quiet (patchUsageTxid_quiet call txid outcome s)
  · exact .quiet (computeWindowUsage_quiet s)
  · exact .quiet ⟨rfl, fun _ _ hr => nomatch hr⟩
  · exact .quiet ⟨rfl, fun _ _ hr => hr⟩

theorem patchUsageTxid_inv (hk : KeptBy cfg Q P) (h : SessionInv P now s) (call : ℕ)
    (txid : Option String) (outcome : WriteOutcome) :
    SessionInv P now (patchUsageTxid call txid outcome s) := by
  unfold patchUsageTxid
  split
  · next rows txid hu => exact h.persistUsage (hk.patch call txid (h.memory rows hu)) outcome
  · exact h

/-- The rows that an event may record. -/
structure Records (H : Host) (M : MathJs) (cfg : AgentConfig) (Q : AgentRow → Prop)
    (event : ℚ × AgentOp) (s : Session) : Prop where
  next : ∀ sub e, Judges H M cfg event s sub e → ∀ n, Q (usageRow event.1 n e sub.key)
  confirmed : ∀ sub e, s.running = .confirming sub e → ∀ n, Q (usageRow event.1 n e sub.key)

/-- One event keeps the relation. -/
theorem agentStep_inv (hk : KeptBy cfg Q P) {event : ℚ × AgentOp} (h : SessionInv P event.1 s)
    (hq : Records H M cfg Q event s) : SessionInv P event.1 (agentStep H M cfg s event) := by
  obtain ⟨now, op⟩ := event
  unfold agentStep
  dsimp only at h ⊢
  split
  · exact h.setUsage rfl rfl (.inl rfl)
  · next halted outcome sub queue hidle hnext =>
    have hs : SessionInv P now { s with queue } := h.setUsage rfl rfl (.inl rfl)
    have heval : SessionInv P now (evaluate H M cfg now { s with queue } sub.data).1 := by
      rw [evaluate_fst]
      exact windowUsageFor_inv hk hs
    unfold enforceAndSubmit
    cases halted with
    | true => exact hs
    | false =>
      simp only [Bool.false_eq_true, if_false]
      cases hev : evaluate H M cfg now { s with queue } sub.data with
      | mk s₁ r =>
        rw [hev] at heval
        cases r with
        | error d => exact heval
        | ok e =>
          dsimp only
          split_ifs
          · exact heval.setUsage rfl rfl (.inl rfl)
          · exact authorizeSubmission_inv hk heval
              (hq.next sub e ⟨⟨false, outcome, rfl⟩, hidle, queue, hnext, by rw [hev]⟩ _)
  · next answer outcome sub e hrunning =>
    split_ifs
    · exact authorizeSubmission_inv hk h (hq.confirmed sub e hrunning _)
    · exact h.setUsage rfl rfl (.inl rfl)
  · next txid outcome call _ =>
    have hs : SessionInv P now { s with running := .idle } := h.setUsage rfl rfl (.inl rfl)
    exact patchUsageTxid_inv hk hs call txid outcome
  · exact computeWindowUsage_inv hk h
  · exact h.restart
  · exact h

/-! ### Keys -/

/-- A key that was used is among the rows, as long as it is remembered. -/
def Remembered (cfg : AgentConfig) (now : ℚ) (log : List LetThrough) (rows : List AgentRow) : Prop :=
  ∀ a ∈ log, ∀ k, a.key = some k → cutoff cfg.idempotencyHours now ≤ a.entry.t →
    ∃ r ∈ rows, r.key = some k ∧ r.t = a.entry.t

theorem cutoff_mono {t : ℚ} (hours : ℚ) (h : t ≤ now) : cutoff hours t ≤ cutoff hours now := by
  unfold cutoff
  linarith

theorem patchRow_key (call : ℕ) (txid : String) (r : AgentRow) :
    (patchRow call txid r).key = r.key ∧ (patchRow call txid r).t = r.t ∧
      (patchRow call txid r).entry = r.entry := by
  unfold patchRow
  split_ifs <;> exact ⟨rfl, rfl, rfl⟩

/-- A row with a key that is remembered stays, compacted or not. -/
theorem mem_pruneRows {r : AgentRow} (hr : r ∈ rows) (hkey : r.key.isSome = true)
    (ht : cutoff cfg.idempotencyHours now ≤ r.t) :
    ∃ r' ∈ pruneRows cfg now rows, r'.key = r.key ∧ r'.t = r.t := by
  unfold pruneRows
  cases cfg.policy.maxPerWindow with
  | none => exact ⟨r, hr, rfl, rfl⟩
  | some win =>
    by_cases hw : cutoff win.hours now ≤ r.t
    · exact ⟨r, List.mem_filterMap.2 ⟨r, hr, if_pos hw⟩, rfl, rfl⟩
    · refine ⟨r.compact, List.mem_filterMap.2 ⟨r, hr, ?_⟩, rfl, rfl⟩
      rw [keepRow, if_neg hw, if_pos ⟨hkey, ht⟩]

theorem remembered_keptBy (cfg : AgentConfig) :
    KeptBy cfg (fun _ => True) (Remembered cfg) where
  nil := by
    intro now a ha
    cases ha
  mono := by
    intro t now log rows ht h a ha k hk hcut
    exact h a ha k hk ((cutoff_mono _ ht).trans hcut)
  prune := by
    intro now log rows h a ha k hk hcut
    obtain ⟨r, hr, hkey, htime⟩ := h a ha k hk hcut
    rw [← htime] at hcut
    obtain ⟨r', hr', hkey', htime'⟩ := mem_pruneRows hr (by rw [hkey]; rfl) hcut
    exact ⟨r', hr', hkey'.trans hkey, htime'.trans htime⟩
  push := by
    intro now log rows row h _ _ a ha k hk hcut
    obtain ⟨r, hr, hrest⟩ := h a ha k hk hcut
    exact ⟨r, List.mem_append_left _ hr, hrest⟩
  record := by
    intro now log rows row h _ _ a ha k hk hcut
    rcases List.mem_append.1 ha with ha | ha
    · obtain ⟨r, hr, hrest⟩ := h a ha k hk hcut
      exact ⟨r, List.mem_append_left _ hr, hrest⟩
    · rw [List.mem_singleton.1 ha] at hk ⊢
      exact ⟨row, by simp, hk, rfl⟩
  patch := by
    intro now log rows call txid h a ha k hk hcut
    obtain ⟨r, hr, hkey, htime⟩ := h a ha k hk hcut
    obtain ⟨hkey', htime', -⟩ := patchRow_key call txid r
    exact ⟨_, List.mem_map_of_mem hr, hkey'.trans hkey, htime'.trans htime⟩

/-- A key is let through once while it is remembered. -/
def Once (cfg : AgentConfig) (log : List LetThrough) : Prop :=
  log.Pairwise fun a b => ∀ k, a.key = some k → b.key = some k →
    a.entry.t < cutoff cfg.idempotencyHours b.entry.t

theorem Once.lets (h : Once cfg s.log) (hinv : SessionInv (Remembered cfg) now s)
    (hl : Lets cfg now s s' sub e) : Once cfg s'.log := by
  obtain ⟨rows, hload, hcheck⟩ := hl.key
  rw [hl.log]
  refine List.pairwise_append.2 ⟨h, List.pairwise_singleton _ _, fun a ha b hb k hk hbk => ?_⟩
  rw [List.mem_singleton.1 hb] at hbk ⊢
  by_contra hnot
  have hrem := (remembered_keptBy cfg).prune (hinv.loadUsage hload)
  obtain ⟨r, hr, hkey, -⟩ := hrem a ha k hk (not_lt.1 hnot)
  -- the row with the key would have refused the submission
  have hsub : sub.key = some k := hbk
  rw [hsub, checkKey] at hcheck
  obtain ⟨hnone, -⟩ := Checks.ite_error_eq_ok.1 hcheck
  exact hnone (List.any_eq_true.2 ⟨r, hr, by simpa using hkey⟩)

/-- One event keeps the keys that were used apart. -/
theorem agentStep_keys {event : ℚ × AgentOp} (h : SessionInv (Remembered cfg) event.1 s)
    (hlog : Once cfg s.log) :
    SessionInv (Remembered cfg) event.1 (agentStep H M cfg s event) ∧
      Once cfg (agentStep H M cfg s event).log := by
  have hk := remembered_keptBy cfg
  refine ⟨agentStep_inv hk h ⟨fun _ _ _ _ => trivial, fun _ _ _ _ => trivial⟩, ?_⟩
  rcases agentStep_effect (H := H) (M := M) event with
    hq | ⟨sub, e, -, hsame, -⟩ | ⟨s₁, sub, queue, e, -, rfl, hl⟩ | ⟨sub, e, -, hl⟩
  · rw [hq.log]
    exact hlog
  · rw [hsame]
    exact hlog
  · have hsame : Quiet { s with queue } (windowUsageFor M cfg event.1 { s with queue }).1 :=
      windowUsageFor_quiet _
    have hs : SessionInv (Remembered cfg) event.1 { s with queue } := h.setUsage rfl rfl (.inl rfl)
    exact Once.lets (by rw [hsame.log]; exact hlog) (windowUsageFor_inv hk hs) hl
  · exact hlog.lets h hl

/-! ### Usage -/

/-- The rows of a policy with a window hold what was let through recently. -/
structure Covered (M : MathJs) (win : WindowRule) (now : ℚ) (log : List LetThrough)
    (rows : List AgentRow) : Prop where
  recent : (SlidingWindow.recent WindowEntry.t (windowMs win.hours) now
    (log.map LetThrough.entry)).Sublist
      (SlidingWindow.recent WindowEntry.t (windowMs win.hours) now (rows.map AgentRow.entry))
  rows : ∀ r ∈ rows, TextRow M r.entry
  texts : ∀ a ∈ log, IsText a.entry.tick
  dated : ∀ a ∈ log, a.entry.t ≤ now

variable {win : WindowRule}

/-- Pruning changes no row of the window. -/
theorem recent_pruneRows (hwin : cfg.policy.maxPerWindow = some win) (rows : List AgentRow) :
    recent WindowEntry.t (windowMs win.hours) now ((pruneRows cfg now rows).map AgentRow.entry) =
      recent WindowEntry.t (windowMs win.hours) now (rows.map AgentRow.entry) := by
  simp only [pruneRows, hwin]
  induction rows with
  | nil => rfl
  | cons r rows ih =>
    by_cases hw : cutoff win.hours now ≤ r.t
    · have hkeep : keepRow win cfg.idempotencyHours now r = some r := if_pos hw
      have hin : now - windowMs win.hours ≤ r.entry.t := hw
      rw [List.filterMap_cons_some hkeep, List.map_cons, List.map_cons,
        SlidingWindow.recent_cons_of_le hin, SlidingWindow.recent_cons_of_le hin, ih]
    · have hout : ¬ now - windowMs win.hours ≤ r.entry.t := hw
      have hout' : ¬ now - windowMs win.hours ≤ r.compact.entry.t := hw
      rw [List.map_cons, SlidingWindow.recent_cons_of_not_le hout, ← ih]
      -- what is left of an aged row is outside of the window too
      by_cases hk : r.key.isSome = true ∧ cutoff cfg.idempotencyHours now ≤ r.t
      · have hkeep : keepRow win cfg.idempotencyHours now r = some r.compact := by
          rw [keepRow, if_neg hw, if_pos hk]
        rw [List.filterMap_cons_some hkeep, List.map_cons,
          SlidingWindow.recent_cons_of_not_le hout']
      · have hkeep : keepRow win cfg.idempotencyHours now r = none := by
          rw [keepRow, if_neg hw, if_neg hk]
        rw [List.filterMap_cons_none hkeep]

theorem windowRows_entries (hwin : cfg.policy.maxPerWindow = some win) (rows : List AgentRow) :
    (windowRows cfg now (pruneRows cfg now rows)).map AgentRow.entry =
      recent WindowEntry.t (windowMs win.hours) now (rows.map AgentRow.entry) := by
  rw [← recent_pruneRows hwin, recent, List.filter_map]
  simp only [windowRows, hwin]
  rfl

theorem TextRow.compact {r : AgentRow} : TextRow M r.compact.entry :=
  ⟨.inl rfl, ⟨fun h => (nomatch h), fun h => (nomatch h)⟩, fun h => (nomatch h)⟩

theorem covered_keptBy (hwin : cfg.policy.maxPerWindow = some win) :
    KeptBy cfg (fun r => TextRow M r.entry) (Covered M win) where
  nil := ⟨by simp [recent], by simp, by simp, by simp⟩
  mono := by
    intro t now log rows ht h
    -- The later window is a filter of the earlier one, on both sides.
    have hlater : ∀ l : List WindowEntry, recent WindowEntry.t (windowMs win.hours) now l =
        (recent WindowEntry.t (windowMs win.hours) t l).filter
          fun e => decide (now - windowMs win.hours ≤ e.t) := by
      intro l
      exact (pruned_pruned ht l).symm
    refine ⟨?_, h.rows, h.texts, fun a ha => (h.dated a ha).trans ht⟩
    rw [hlater, hlater]
    exact h.recent.filter _
  prune := by
    intro now log rows h
    refine ⟨?_, fun r hr => ?_, h.texts, h.dated⟩
    · rw [recent_pruneRows hwin]
      exact h.recent
    · simp only [pruneRows, hwin] at hr
      obtain ⟨r', hr', hkeep⟩ := List.mem_filterMap.1 hr
      unfold keepRow at hkeep
      split_ifs at hkeep
      · cases hkeep
        exact h.rows _ hr'
      · cases hkeep
        exact .compact
  push := by
    intro now log rows row h _ hq
    refine ⟨?_, fun r hr => ?_, h.texts, h.dated⟩
    · rw [List.map_append, recent, recent, List.filter_append]
      exact h.recent.trans (List.sublist_append_left _ _)
    · rcases List.mem_append.1 hr with hr | hr
      · exact h.rows r hr
      · rw [List.mem_singleton.1 hr]
        exact hq
  record := by
    intro now log rows row h ht hq
    refine ⟨?_, fun r hr => ?_, fun a ha => ?_, fun a ha => ?_⟩
    · rw [List.map_append, List.map_append, recent, recent, List.filter_append, List.filter_append]
      exact h.recent.append (List.Sublist.refl _)
    · rcases List.mem_append.1 hr with hr | hr
      · exact h.rows r hr
      · rw [List.mem_singleton.1 hr]
        exact hq
    · rcases List.mem_append.1 ha with ha | ha
      · exact h.texts a ha
      · rw [List.mem_singleton.1 ha]
        exact hq.text
    · rcases List.mem_append.1 ha with ha | ha
      · exact h.dated a ha
      · rw [List.mem_singleton.1 ha]
        exact ht.le
  patch := by
    intro now log rows call txid h
    -- A txid is no part of what a row counts for.
    have hsame : (rows.map (patchRow call txid)).map AgentRow.entry = rows.map AgentRow.entry := by
      rw [List.map_map]
      exact List.map_congr_left fun r _ => (patchRow_key call txid r).2.2
    refine ⟨?_, fun r hr => ?_, h.texts, h.dated⟩
    · rw [hsame]
      exact h.recent
    · obtain ⟨r', hr', rfl⟩ := List.mem_map.1 hr
      rw [(patchRow_key call txid r').2.2]
      exact h.rows r' hr'

/-- A submission was judged on rows that hold what was let through recently. -/
def Ready (M : MathJs) (cfg : AgentConfig) (win : WindowRule) (now : ℚ) (log : List LetThrough)
    (e : Evaluation) : Prop :=
  ∃ rows, Judged M win.hours now (log.map LetThrough.entry) rows ∧
    ChargeJudged M cfg.policy (totals M rows) e ∧ ChargeFits M rows e

theorem addUsage_eq {perTick perTick' : Dict String String} {r : WindowEntry}
    (h : addUsage M perTick r = some perTick') : accumulate M perTick r = perTick' := by
  unfold addUsage at h
  unfold accumulate
  split_ifs at h ⊢
  · exact Option.some.inj h
  · obtain ⟨total, htotal, rfl⟩ := Option.map_eq_some_iff.1 h
    rw [htotal]

/-- Totals that do not throw are those of the window ledger. -/
theorem usageOf_eq {entries : List WindowEntry} {usage : WindowUsage}
    (h : usageOf M entries = some usage) : usage = totals M entries := by
  obtain ⟨perTick, hfold, rfl⟩ := Option.map_eq_some_iff.1 h
  have hinv : perTick = entries.foldl (accumulate M) Dict.empty := by
    refine Loop.foldlM_inv (fun pre t => t = pre.foldl (accumulate M) Dict.empty) rfl ?_ hfold
    intro pre a t t' ht hstep
    rw [List.foldl_append, List.foldl_cons, List.foldl_nil, ← ht, addUsage_eq hstep]
  rw [hinv]
  rfl

/-- The verdict of a policy with a window was taken on the rows of the window. -/
theorem evaluate_ok (hwin : cfg.policy.maxPerWindow = some win) {data : ActionData}
    (h : (evaluate H M cfg now s data).2 = .ok e) :
    ∃ rows, s.loadUsage = some rows ∧ evaluatePolicy H M cfg.policy data (some (totals M
      ((windowRows cfg now (pruneRows cfg now rows)).map AgentRow.entry))) = .ok e := by
  unfold evaluate windowUsageFor computeWindowUsage at h
  simp only [hwin] at h
  cases hl : s.loadUsage with
  | none => simp [hl, deny] at h
  | some rows =>
    refine ⟨rows, rfl, ?_⟩
    cases hu : usageOf M ((windowRows cfg now (pruneRows cfg now rows)).map AgentRow.entry) with
    | none => simp [hl, hu] at h
    | some usage =>
      simp only [hl, hu] at h
      rw [← usageOf_eq hu]
      cases hv : evaluatePolicy H M cfg.policy data (some usage) with
      | error r => simp [hv] at h
      | ok e' =>
        simp only [hv, Except.ok.injEq] at h
        rw [h]

/-- A verdict under a window has to be about a token that is text, and its sums have to fit. -/
def AgentMeets (H : Host) (M : MathJs) (cfg : AgentConfig) (s : Session) (event : ℚ × AgentOp) :
    Prop :=
  match event.2, s.running, s.queue with
  | .next _ _, .idle, sub :: queue => cfg.policy.maxPerWindow.isSome = true →
    ∀ rows e, s.loadUsage = some rows →
      (evaluate H M cfg event.1 { s with queue } sub.data).2 = .ok e → IsText e.tick ∧
        ChargeFits M ((windowRows cfg event.1 (pruneRows cfg event.1 rows)).map AgentRow.entry) e
  | _, _, _ => True

/-- What was let through is within the limits, and a submission that waits for its confirmation was
judged on all of it. -/
structure CapsInv (M : MathJs) (cfg : AgentConfig) (win : WindowRule) (now : ℚ) (s : Session) :
    Prop where
  session : SessionInv (Covered M win) now s
  limits : Limits M cfg.policy win.hours (s.log.map LetThrough.entry)
  ready : ∀ sub e, s.running = .confirming sub e → Ready M cfg win now s.log e

theorem Ready.mono {t : ℚ} (ht : t ≤ now) (h : Ready M cfg win t log e) :
    Ready M cfg win now log e := by
  obtain ⟨rows, hj, hrest⟩ := h
  exact ⟨rows, hj.mono ht, hrest⟩

theorem Ready.textRow (h : Ready M cfg win now log e) (n : ℕ) (key : Option String) :
    TextRow M (usageRow now n e key).entry := by
  obtain ⟨rows, -, he, hfit⟩ := h
  exact he.textRow hfit.nameable rfl rfl

theorem Ready.limits (h : Ready M cfg win now s.log e)
    (hlimits : Limits M cfg.policy win.hours (s.log.map LetThrough.entry))
    (hl : Lets cfg now s s' sub e) :
    Limits M cfg.policy win.hours (s'.log.map LetThrough.entry) := by
  obtain ⟨rows, hj, he, hfit⟩ := h
  rw [hl.log, List.map_append]
  exact hlimits.charge hj he hfit rfl rfl

/-- A verdict was taken on everything that was let through recently. -/
theorem Judges.ready {event : ℚ × AgentOp} (hj : Judges H M cfg event s sub e)
    (hwin : cfg.policy.maxPerWindow = some win) (h : SessionInv (Covered M win) event.1 s)
    (hm : AgentMeets H M cfg s event) : Ready M cfg win event.1 s.log e := by
  obtain ⟨halted, outcome, hop⟩ := hj.op
  obtain ⟨queue, hnext, hev⟩ := hj.verdict
  obtain ⟨rows, hload, hpolicy⟩ := evaluate_ok hwin hev
  have hcov := h.loadUsage hload
  have hmeets : IsText e.tick ∧ ChargeFits M
      ((windowRows cfg event.1 (pruneRows cfg event.1 rows)).map AgentRow.entry) e := by
    have hidle := hj.idle
    unfold AgentMeets at hm
    split at hm
    · next sub' queue' _ _ hqueue =>
      rw [hnext, List.cons.injEq] at hqueue
      obtain ⟨rfl, rfl⟩ := hqueue
      exact hm (by rw [hwin]; rfl) rows e hload hev
    · next hno => exact absurd hnext (hno halted outcome sub queue hop hidle)
  obtain ⟨htick, hfit⟩ := hmeets
  rw [windowRows_entries hwin] at hpolicy hfit
  have hrows : ∀ r ∈ recent WindowEntry.t (windowMs win.hours) event.1 (rows.map AgentRow.entry),
      TextRow M r := by
    intro r hr
    obtain ⟨r', hr', rfl⟩ := List.mem_map.1 (List.mem_of_mem_filter hr)
    exact hcov.rows r' hr'
  have hjudged : Judged M win.hours event.1 (s.log.map LetThrough.entry)
      (recent WindowEntry.t (windowMs win.hours) event.1 (rows.map AgentRow.entry)) :=
    ⟨hcov.recent, hrows, List.forall_mem_map.2 hcov.texts, List.forall_mem_map.2 hcov.dated⟩
  exact ⟨_, hjudged, evaluatePolicy_judged htick hrows hfit hpolicy, hfit⟩

theorem agentStep_caps (hwin : cfg.policy.maxPerWindow = some win) {event : ℚ × AgentOp}
    (h : CapsInv M cfg win event.1 s) (hm : AgentMeets H M cfg s event) :
    CapsInv M cfg win event.1 (agentStep H M cfg s event) := by
  have hrecords : Records H M cfg (fun r => TextRow M r.entry) event s :=
    ⟨fun sub e hj n => (hj.ready hwin h.session hm).textRow n sub.key,
      fun sub e hr n => (h.ready sub e hr).textRow n sub.key⟩
  have hsession := agentStep_inv (covered_keptBy hwin) h.session hrecords
  rcases agentStep_effect (H := H) (M := M) event with
    hq | ⟨sub, e, hj, hlog, hrun⟩ | ⟨s₁, sub, queue, e, hj, rfl, hl⟩ | ⟨sub, e, hrun, hl⟩
  · refine ⟨hsession, ?_, fun sub e hr => ?_⟩
    · rw [hq.log]
      exact h.limits
    · rw [hq.log]
      exact h.ready sub e (hq.running sub e hr)
  · refine ⟨hsession, ?_, fun sub' e' hr => ?_⟩
    · rw [hlog]
      exact h.limits
    · rw [hrun] at hr
      cases hr
      rw [hlog]
      exact hj.ready hwin h.session hm
  · have hready := hj.ready hwin h.session hm
    have hsame : Quiet { s with queue } (windowUsageFor M cfg event.1 { s with queue }).1 :=
      windowUsageFor_quiet _
    refine ⟨hsession, ?_, fun sub' e' hr => absurd hr (hl.running sub' e')⟩
    exact Ready.limits (by rw [hsame.log]; exact hready) (by rw [hsame.log]; exact h.limits) hl
  · exact ⟨hsession, (h.ready sub e hrun).limits h.limits hl,
      fun sub' e' hr => absurd hr (hl.running sub' e')⟩

/-! ### Runs -/

/-- Where a run starts. -/
theorem sessionInv_start (hk : KeptBy cfg Q P) (now : ℚ) :
    SessionInv P now ⟨.absent, none, [], .idle, 0, []⟩ :=
  ⟨fun _ hu => (nomatch hu), .inl ⟨rfl, hk.nil⟩⟩

/-- The times of a run, from its first to its last. -/
theorem exists_bounds {events : List (ℚ × AgentOp)}
    (h : (events.map Prod.fst).Pairwise (· ≤ ·)) :
    ∃ t now, t ≤ now ∧ (∀ e ∈ events, t ≤ e.1) ∧ ∀ e ∈ events, e.1 ≤ now := by
  induction events with
  | nil => exact ⟨0, 0, le_rfl, by simp, by simp⟩
  | cons e events ih =>
    rw [List.map_cons, List.pairwise_cons] at h
    obtain ⟨t, now, hle, hstart, hend⟩ := ih h.2
    refine ⟨e.1, max e.1 now, le_max_left _ _, fun x hx => ?_, fun x hx => ?_⟩
    · rcases List.mem_cons.1 hx with rfl | hx
      · exact le_rfl
      · exact h.1 _ (List.mem_map_of_mem hx)
    · rcases List.mem_cons.1 hx with rfl | hx
      · exact le_max_left _ _
      · exact (hend x hx).trans (le_max_right _ _)

/-- **At-most-once and budget of agent sessions.**  In every run with a clock that does not go back,
over overlapping calls, restarts and failures, a key is let through once while it is remembered;
and when the verdicts are about tokens that are text, then in every interval of the window's length
what was let through is no more than the policy allows, and of each token spends no more than its
cap. -/
theorem agent_safe (H : Host) (M : MathJs) (cfg : AgentConfig) (events : List (ℚ × AgentOp))
    (hclock : (events.map Prod.fst).Pairwise (· ≤ ·)) :
    Once cfg (agentRun H M cfg events).log ∧
    (Runs.Along (agentStep H M cfg) (AgentMeets H M cfg) ⟨.absent, none, [], .idle, 0, []⟩ events →
      ∀ win, cfg.policy.maxPerWindow = some win →
        Limits M cfg.policy win.hours ((agentRun H M cfg events).log.map LetThrough.entry)) := by
  obtain ⟨t, now, hle, hstart, hend⟩ := exists_bounds hclock
  constructor
  · have hinv : SessionInv (Remembered cfg) now (agentRun H M cfg events) ∧
        Once cfg (agentRun H M cfg events).log :=
      Runs.Along.timed (P := fun _ _ => True)
        (I := fun now s => SessionInv (Remembered cfg) now s ∧ Once cfg s.log)
        (fun _ _ _ ht h => ⟨h.1.mono (remembered_keptBy cfg) ht, h.2⟩)
        (fun _ _ h _ => agentStep_keys h.1 h.2)
        ⟨sessionInv_start (remembered_keptBy cfg) t, List.Pairwise.nil⟩ hstart hclock hend hle
        Runs.along_true
    exact hinv.2
  · intro hmeets win hwin
    have hinv : CapsInv M cfg win now (agentRun H M cfg events) :=
      Runs.Along.timed (I := CapsInv M cfg win)
        (fun _ _ _ ht h => ⟨h.session.mono (covered_keptBy hwin) ht, h.limits,
          fun sub e hr => (h.ready sub e hr).mono ht⟩)
        (fun _ _ h hm => agentStep_caps hwin h hm)
        ⟨sessionInv_start (covered_keptBy hwin) t, Limits.nil, fun _ _ hr => (nomatch hr)⟩ hstart
        hclock hend hle hmeets
    exact hinv.limits

/-! ### A retry, and the token `*` -/

/-- Ten units of each token a day. -/
def dailyAgent : AgentConfig := { policy := dailyPolicy }

/-- A submission of ten units under a key. -/
def submitTen (tick key : String) : Submission := ⟨sendTen tick, .str key⟩

/-- A payment is submitted, and again by another session a day later. -/
def retriedPayment : List (ℚ × AgentOp) :=
  [(0, .submit (submitTen "TOK" "k")), (1, .next false .written), (2, .settled none .written),
    (90000000, .restart), (90000000, .submit (submitTen "TOK" "k")),
    (90000001, .next false .written)]

/-- Ten units of the token are judged on an empty window. -/
def judgesTen (s : Session) (event : ℚ × AgentOp) : Bool :=
  match event.2, s.running, s.queue with
  | .next _ _, .idle, sub :: queue =>
    match s.loadUsage, (evaluate plainHost plainMath dailyAgent event.1 { s with queue } sub.data).2 with
    | some rows, .ok e =>
      (windowRows dailyAgent event.1 (pruneRows dailyAgent event.1 rows)).isEmpty &&
        e.tick.str? == some "TOK" && e.amount.toText == "10"
    | _, _ => true
  | _, _, _ => true

theorem agentMeets_of_judgesTen {event : ℚ × AgentOp} (h : judgesTen s event = true) :
    AgentMeets plainHost plainMath dailyAgent s event := by
  unfold AgentMeets
  unfold judgesTen at h
  split
  · next sub queue hop hidle hnext =>
    intro _ rows e hload hev
    simp only [hop, hidle, hnext, hload] at h
    rw [hidle] at hev
    simp only [hev, Bool.and_eq_true, beq_iff_eq, List.isEmpty_iff] at h
    obtain ⟨⟨hrows, htick⟩, hamount⟩ := h
    have ht : e.tick = .str "TOK" := by
      cases hc : e.tick <;> simp_all [Js.str?]
    rw [hrows, ht]
    exact ⟨.inr ⟨_, rfl⟩, chargeFits_ten ht hamount⟩
  · trivial

theorem agent_safe_retriedPayment :
    Once dailyAgent (agentRun plainHost plainMath dailyAgent retriedPayment).log ∧
      Limits plainMath dailyPolicy 24
        ((agentRun plainHost plainMath dailyAgent retriedPayment).log.map LetThrough.entry) := by
  have hsafe := agent_safe plainHost plainMath dailyAgent retriedPayment (by decide)
  refine ⟨hsafe.1, hsafe.2 ?_ _ rfl⟩
  exact Runs.Along.imp (P := fun s event => judgesTen s event = true)
    (fun _ _ h => agentMeets_of_judgesTen h) (by decide +kernel)

/-- Two payments of the token `*` on one day. -/
def starPayments : List (ℚ × AgentOp) :=
  [(0, .submit (submitTen "*" "a")), (0, .submit (submitTen "*" "b")), (1, .next false .written),
    (2, .settled none .written), (3, .next false .written)]

/-- Twenty units of the token `*` are let through where ten are allowed. -/
theorem star_payments_uncounted :
    ¬ ∀ (H : Host) (M : MathJs) (cfg : AgentConfig) (events : List (ℚ × AgentOp)),
      (events.map Prod.fst).Pairwise (· ≤ ·) → Once cfg (agentRun H M cfg events).log ∧
        ∀ win, cfg.policy.maxPerWindow = some win →
          Limits M cfg.policy win.hours ((agentRun H M cfg events).log.map LetThrough.entry) := by
  intro hall
  have hlimits := (hall plainHost plainMath dailyAgent starPayments (by decide)).2 _ rfl
  have hany : (within WindowEntry.t (windowMs 24) 0 ((agentRun plainHost plainMath dailyAgent
      starPayments).log.map LetThrough.entry)).any (fun b => b.tick.str? == some "*" &&
        !isUndefined b.amount) = true := by decide +kernel
  obtain ⟨b, hb, hstar⟩ := List.any_eq_true.1 hany
  simp only [Bool.and_eq_true, beq_iff_eq, Bool.not_eq_true'] at hstar
  have htick : b.tick = .str "*" := by
    cases hc : b.tick <;> simp_all [Js.str?]
  have hcap : windowCap plainMath dailyPolicy b.tick = some 10 := by
    rw [htick]
    decide +kernel
  have hspend := hlimits.spend 0 b hb hstar.2 10 hcap
  rw [htick] at hspend
  have htwenty : spending plainMath (tickFold (.str "*")) (within WindowEntry.t (windowMs 24) 0
      ((agentRun plainHost plainMath dailyAgent starPayments).log.map LetThrough.entry)) = 20 := by
    decide +kernel
  exact absurd (htwenty ▸ hspend) (by norm_num)

end XChainSdk
