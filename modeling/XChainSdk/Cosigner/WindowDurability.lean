import Mathlib
import XChainSdk.Cosigner.PolicySoundness
import XChainSdk.Cosigner.WindowLedger

/-!
# What the window ledger keeps

Over any run of charges, reads, failed writes and restarts, the rows in memory and the rows in the
file are the charges that returned, each once, and at most some charges whose write failed.

* `load_fileOf` : a file that the store wrote reads back as its rows.
* `totals_value` : a running total is the exact sum of its amounts.
* `Accounted`, `accounted_run` : the invariant of a run.
* `window_durable` : what a snapshot counts, in memory and after a restart.
-/

namespace XChainSdk

variable {M : MathJs} {hours now : ℚ}

/-! ### Rows and the file -/

/-- A row that `record` pushed. -/
def Recorded (M : MathJs) (e : WindowEntry) : Prop :=
  ∃ (charge : Charge) (t : ℚ), e = charge.entry t ∧ addable M e.amount = true

theorem jsOfOption_cases (s : Option String) :
    jsOfOption s = .undefined ∨ ∃ t, jsOfOption s = .str t := by
  cases s with
  | none => exact .inl rfl
  | some t => exact .inr ⟨t, rfl⟩

theorem readRow_storedRow {e : WindowEntry} (h : Recorded M e) :
    readRow M (storedRow e) = some e := by
  obtain ⟨charge, t, rfl, hadd⟩ := h
  rcases jsOfOption_cases charge.tick with ht | ⟨tick, ht⟩ <;>
    rcases jsOfOption_cases charge.amount with ha | ⟨amount, ha⟩ <;>
      rcases jsOfOption_cases charge.txid with hx | ⟨txid, hx⟩ <;>
        simp_all [Charge.entry, storedRow, readRow, isUndefined, Js.member, List.lookup_cons]

theorem mapM_readRow {entries : List WindowEntry} (h : ∀ e ∈ entries, Recorded M e) :
    (entries.map storedRow).mapM (readRow M) = some entries := by
  rw [Loop.mapM_eq_some_iff, List.forall₂_map_left_iff, List.forall₂_same]
  exact fun e he => readRow_storedRow (h e he)

theorem applyClockGuards_of_le {entries : List WindowEntry} (h : ∀ e ∈ entries, e.t ≤ now) :
    applyClockGuards now entries = entries := by
  have hclamp : ∀ e ∈ entries, clampRow now e = e := by
    intro e he
    have hle := h e he
    rw [clampRow, if_neg]
    unfold CLOCK_SKEW_TOLERANCE_MS
    linarith
  rw [applyClockGuards, List.map_congr_left hclamp, List.map_id']

/-- A file that the store wrote reads back as its rows. -/
theorem load_fileOf {init : Bool} {entries : List WindowEntry} (h : ∀ e ∈ entries, Recorded M e)
    (ht : ∀ e ∈ entries, e.t ≤ now) : load M init now (fileOf entries) = .ok entries := by
  simp only [load, fileOf, mapM_readRow h, applyClockGuards_of_le ht]

theorem readRow_addable {row : Js} {e : WindowEntry} (h : readRow M row = some e) :
    addable M e.amount = true := by
  unfold readRow at h
  split at h
  · split at h
    · split_ifs at h with hadd
      cases h
      exact hadd
    · cases h
  · cases h

theorem clampRow_le (now : ℚ) (e : WindowEntry) :
    (clampRow now e).t ≤ now + CLOCK_SKEW_TOLERANCE_MS := by
  unfold clampRow
  split_ifs with h
  · simp [CLOCK_SKEW_TOLERANCE_MS]
  · exact not_lt.1 h

/-- What a load makes of a row: dated now at the latest, up to the tolerance, and with an amount
that can be added. -/
structure LoadedRow (M : MathJs) (now : ℚ) (row : Js) (e : WindowEntry) : Prop where
  row : ∃ e', readRow M row = some e' ∧ e = clampRow now e'
  dated : e.t ≤ now + CLOCK_SKEW_TOLERANCE_MS
  addable : addable M e.amount = true

/-- Whatever the file holds, a load that succeeds keeps every row. -/
theorem load_entries {init : Bool} {rows : List Js} {entries : List WindowEntry}
    (h : load M init now (.entries rows) = .ok entries) :
    List.Forall₂ (LoadedRow M now) rows entries := by
  unfold load at h
  cases hr : rows.mapM (readRow M) with
  | none => simp [hr] at h
  | some read =>
    simp only [hr, Except.ok.injEq] at h
    rw [← h, applyClockGuards, List.forall₂_map_right_iff]
    refine (Loop.mapM_eq_some_iff.1 hr).imp fun row e he => ⟨⟨e, he, rfl⟩, clampRow_le now e, ?_⟩
    have hamount : (clampRow now e).amount = e.amount := by
      unfold clampRow
      split_ifs <;> rfl
    rw [hamount]
    exact readRow_addable he

/-! ### Running totals -/

/-- The amount of a row reads as a number, if it has one. -/
def Numeric (M : MathJs) (e : WindowEntry) : Prop :=
  isUndefined e.amount = false → ∃ q, M.value e.amount.toText = some q

/-- The amounts that accumulate under a key. -/
def amountsAt (M : MathJs) (key : String) (entries : List WindowEntry) : List ℚ :=
  (entries.filter fun e => !isUndefined e.amount && bucketOf e.tick == key).filterMap fun e =>
    M.value e.amount.toText

theorem get?_accumulate_ne {perTick : Dict String String} {e : WindowEntry} {key : String}
    (h : (!isUndefined e.amount && bucketOf e.tick == key) = false) :
    (accumulate M perTick e).get? key = perTick.get? key := by
  unfold accumulate
  by_cases hu : isUndefined e.amount = true
  · rw [if_pos hu]
  · have hne : key ≠ bucketOf e.tick := fun he => by simp [hu, he] at h
    rw [if_neg hu]
    split
    · rw [Dict.get?_set, if_neg hne]
    · rfl

/-- The induction is on the rows still to come; the invariant is the exact sum so far. -/
theorem foldl_accumulate {key : String} (entries : List WindowEntry)
    (hnum : ∀ e ∈ entries, Numeric M e) (perTick : Dict String String) (v : ℚ)
    (hv : M.value ((perTick.get? key).getD "0") = some v)
    (hfit : ∀ l, l <+: amountsAt M key entries → FitsSig BIGNUMBER_PRECISION (v + l.sum)) :
    M.value (((entries.foldl (accumulate M) perTick).get? key).getD "0") =
      some (v + (amountsAt M key entries).sum) := by
  induction entries generalizing perTick v with
  | nil => simpa [amountsAt] using hv
  | cons e entries ih =>
    rw [List.forall_mem_cons] at hnum
    rw [List.foldl_cons]
    cases hc : (!isUndefined e.amount && bucketOf e.tick == key) with
    | false =>
      have hskip : amountsAt M key (e :: entries) = amountsAt M key entries := by
        simp [amountsAt, hc]
      rw [hskip] at hfit ⊢
      exact ih hnum.2 _ v (by rw [get?_accumulate_ne hc, hv]) hfit
    | true =>
      simp only [Bool.and_eq_true, Bool.not_eq_true', beq_iff_eq] at hc
      obtain ⟨hdef, hkey⟩ := hc
      obtain ⟨q, hq⟩ := hnum.1 hdef
      have hcons : amountsAt M key (e :: entries) = q :: amountsAt M key entries := by
        simp [amountsAt, hdef, hkey, hq]
      rw [hcons] at hfit ⊢
      obtain ⟨s, hs, hsv⟩ := M.value_addDecimal hv hq
      have hexact : roundSig BIGNUMBER_PRECISION (v + q) = v + q :=
        roundSig_of_fits (by simpa using hfit [q] (by simp))
      have hget : (accumulate M perTick e).get? key = some s := by
        have hset : accumulate M perTick e = perTick.set key s := by
          simp [accumulate, hdef, hkey, hs]
        rw [hset, Dict.get?_set, if_pos rfl]
      rw [ih hnum.2 _ (v + q) (by rw [hget, Option.getD_some, hsv, hexact]) fun l hl => by
        have hpre := hfit (q :: l) (List.cons_prefix_cons.2 ⟨rfl, hl⟩)
        rwa [List.sum_cons, ← add_assoc] at hpre]
      rw [List.sum_cons, add_assoc]

/-- **A running total is the exact sum of its amounts**, while the sums fit the package's digits. -/
theorem totals_value {key : String} {entries : List WindowEntry}
    (hnum : ∀ e ∈ entries, Numeric M e)
    (hfit : ∀ l, l <+: amountsAt M key entries → FitsSig BIGNUMBER_PRECISION l.sum) :
    M.value (((totals M entries).perTick.get? key).getD "0") =
      some (amountsAt M key entries).sum := by
  have h := foldl_accumulate entries hnum Dict.empty 0 M.value_zero
    (fun l hl => by rw [zero_add]; exact hfit l hl)
  rw [zero_add] at h
  exact h

/-! ### The charges of a run -/

/-- What became of a charge. -/
inductive Fate where
  | returned
  /-- its write failed -/
  | unsure
  /-- it threw before anything was pushed -/
  | refused
  deriving DecidableEq

/-- A call of `record`. -/
structure Attempt where
  entry : WindowEntry
  fate : Fate

/-- The fate of a charge whose write ends so. -/
def fateOf (outcome : WriteOutcome) : Result → Fate
  | .returned => .returned
  | _ =>
    match outcome with
    | .written => .refused
    | _ => .unsure

/-- The charge that a step attempts. -/
def attemptOf (now : ℚ) (result : Result) : Op → List Attempt
  | .record charge _ outcome => [⟨charge.entry now, fateOf outcome result⟩]
  | _ => []

/-- A store with the charges attempted so far. -/
structure Run where
  store : Store
  log : List Attempt

/-- One step of a run. -/
def runStep (M : MathJs) (hours : ℚ) (r : Run) (e : ℚ × Op) : Run :=
  let (store, result) := step M hours r.store e.1 e.2
  ⟨store, r.log ++ attemptOf e.1 result e.2⟩

/-- A run from an empty disk. -/
def run (M : MathJs) (hours : ℚ) (ops : List (ℚ × Op)) : Run :=
  ops.foldl (runStep M hours) ⟨⟨.absent, none⟩, []⟩

/-- The charge returned. -/
def Attempt.returned (a : Attempt) : Bool := decide (a.fate = .returned)

/-- All charges that returned, and some of those whose write failed. -/
structure Kept (log kept : List Attempt) : Prop where
  sub : kept.Sublist log
  pushed : ∀ a ∈ kept, a.fate ≠ .refused
  returned : kept.filter Attempt.returned = log.filter Attempt.returned

theorem Kept.nil : Kept [] [] := ⟨List.Sublist.refl _, by simp, rfl⟩

theorem Kept.push {log kept : List Attempt} (h : Kept log kept) {a : Attempt}
    (ha : a.fate ≠ .refused) : Kept (log ++ [a]) (kept ++ [a]) where
  sub := h.sub.append (List.Sublist.refl _)
  pushed := by
    intro b hb
    rcases List.mem_append.1 hb with hb | hb
    · exact h.pushed b hb
    · rw [List.mem_singleton.1 hb]
      exact ha
  returned := by rw [List.filter_append, List.filter_append, h.returned]

theorem Kept.skip {log kept : List Attempt} (h : Kept log kept) {l : List Attempt}
    (hl : ∀ a ∈ l, a.fate ≠ .returned) : Kept (log ++ l) kept where
  sub := h.sub.trans (List.sublist_append_left log l)
  pushed := h.pushed
  returned := by
    have hnil : l.filter Attempt.returned = [] := List.filter_eq_nil_iff.2 fun a ha => by
      simpa [Attempt.returned] using hl a ha
    rw [List.filter_append, hnil, List.append_nil, h.returned]

/-- Without failed writes, what is kept is what returned. -/
theorem Kept.eq {log kept : List Attempt} (h : Kept log kept) (hlog : ∀ a ∈ log, a.fate ≠ .unsure) :
    kept = log.filter Attempt.returned := by
  rw [← h.returned, eq_comm, List.filter_eq_self]
  intro a ha
  have hp := h.pushed a ha
  have hu := hlog a (h.sub.subset ha)
  cases hf : a.fate
  · simp [Attempt.returned, hf]
  · exact absurd hf hu
  · exact absurd hf hp

/-- The rows within the window are those of the kept charges. -/
def Accounted (hours now : ℚ) (log : List Attempt) (entries : List WindowEntry) : Prop :=
  ∃ kept, Kept log kept ∧ pruned hours now entries = pruned hours now (kept.map Attempt.entry)

theorem live_mono {t t' : ℚ} (h : t ≤ t') {e : WindowEntry} (he : live hours t' e = true) :
    live hours t e = true := by
  unfold live cutoff at *
  rw [decide_eq_true_eq] at *
  linarith

/-- Pruning at an earlier time changes nothing later. -/
theorem pruned_pruned {t t' : ℚ} (h : t ≤ t') (entries : List WindowEntry) :
    pruned hours t' (pruned hours t entries) = pruned hours t' entries := by
  unfold pruned
  rw [List.filter_filter]
  refine List.filter_congr fun e _ => ?_
  cases he : live hours t' e with
  | false => rfl
  | true => simpa using live_mono h he

theorem Accounted.mono {t t' : ℚ} {log : List Attempt} {entries : List WindowEntry} (h : t ≤ t')
    (ha : Accounted hours t log entries) : Accounted hours t' log entries := by
  obtain ⟨kept, hk, he⟩ := ha
  exact ⟨kept, hk, by rw [← pruned_pruned h, he, pruned_pruned h]⟩

theorem Accounted.pruned {log : List Attempt} {entries : List WindowEntry}
    (ha : Accounted hours now log entries) :
    Accounted hours now log (XChainSdk.pruned hours now entries) := by
  obtain ⟨kept, hk, he⟩ := ha
  exact ⟨kept, hk, by rw [pruned_pruned le_rfl, he]⟩

theorem Accounted.push {log : List Attempt} {entries : List WindowEntry}
    (ha : Accounted hours now log entries) {a : Attempt} (hfate : a.fate ≠ .refused) :
    Accounted hours now (log ++ [a]) (entries ++ [a.entry]) := by
  obtain ⟨kept, hk, he⟩ := ha
  refine ⟨kept ++ [a], hk.push hfate, ?_⟩
  unfold XChainSdk.pruned at *
  rw [List.filter_append, he, List.map_append, List.filter_append]
  rfl

theorem Accounted.skip {log : List Attempt} {entries : List WindowEntry}
    (ha : Accounted hours now log entries) {l : List Attempt}
    (hl : ∀ a ∈ l, a.fate ≠ .returned) : Accounted hours now (log ++ l) entries := by
  obtain ⟨kept, hk, he⟩ := ha
  exact ⟨kept, hk.skip hl, he⟩

/-! ### The invariant of a run -/

/-- Rows that the store pushed, none of them in the future, and all accounted for. -/
structure Rows (M : MathJs) (hours now : ℚ) (log : List Attempt) (entries : List WindowEntry) :
    Prop where
  recorded : ∀ e ∈ entries, Recorded M e
  dated : ∀ e ∈ entries, e.t ≤ now
  accounted : Accounted hours now log entries

/-- The file holds such rows; an absent file holds none. -/
def FileRows (M : MathJs) (hours now : ℚ) (log : List Attempt) (file : StateFile) : Prop :=
  ∃ entries, (file = fileOf entries ∨ file = .absent ∧ entries = []) ∧ Rows M hours now log entries

/-- The file and the memory of a store hold such rows. -/
structure StoreInv (M : MathJs) (hours now : ℚ) (log : List Attempt) (s : Store) : Prop where
  file : FileRows M hours now log s.file
  memory : ∀ entries, s.memory = some entries → Rows M hours now log entries

section Invariant

variable {log l : List Attempt} {entries : List WindowEntry} {file : StateFile} {s : Store}

theorem Rows.mono {t : ℚ} (ht : t ≤ now) (h : Rows M hours t log entries) :
    Rows M hours now log entries :=
  ⟨h.recorded, fun e he => (h.dated e he).trans ht, h.accounted.mono ht⟩

theorem Rows.pruned (h : Rows M hours now log entries) :
    Rows M hours now log (XChainSdk.pruned hours now entries) :=
  ⟨fun e he => h.recorded e (List.mem_of_mem_filter he),
    fun e he => h.dated e (List.mem_of_mem_filter he), h.accounted.pruned⟩

theorem Rows.skip (h : Rows M hours now log entries) (hl : ∀ a ∈ l, a.fate ≠ .returned) :
    Rows M hours now (log ++ l) entries :=
  ⟨h.recorded, h.dated, h.accounted.skip hl⟩

theorem Rows.push (h : Rows M hours now log entries) {charge : Charge}
    (hadd : addable M (charge.entry now).amount = true) {fate : Fate} (hfate : fate ≠ .refused) :
    Rows M hours now (log ++ [⟨charge.entry now, fate⟩]) (entries ++ [charge.entry now]) where
  recorded := by
    intro e he
    rcases List.mem_append.1 he with he | he
    · exact h.recorded e he
    · rw [List.mem_singleton.1 he]
      exact ⟨charge, now, rfl, hadd⟩
  dated := by
    intro e he
    rcases List.mem_append.1 he with he | he
    · exact h.dated e he
    · rw [List.mem_singleton.1 he]
      exact le_rfl
  accounted := h.accounted.push (a := ⟨charge.entry now, fate⟩) hfate

theorem Rows.fileOf (h : Rows M hours now log entries) :
    FileRows M hours now log (XChainSdk.fileOf entries) := ⟨entries, .inl rfl, h⟩

theorem FileRows.mono {t : ℚ} (ht : t ≤ now) (h : FileRows M hours t log file) :
    FileRows M hours now log file := by
  obtain ⟨entries, hfile, hrows⟩ := h
  exact ⟨entries, hfile, hrows.mono ht⟩

theorem FileRows.skip (h : FileRows M hours now log file) (hl : ∀ a ∈ l, a.fate ≠ .returned) :
    FileRows M hours now (log ++ l) file := by
  obtain ⟨entries, hfile, hrows⟩ := h
  exact ⟨entries, hfile, hrows.skip hl⟩

theorem FileRows.load (h : FileRows M hours now log file) {init : Bool}
    (hload : load M init now file = .ok entries) : Rows M hours now log entries := by
  obtain ⟨rows, hfile, hrows⟩ := h
  rcases hfile with rfl | ⟨rfl, rfl⟩
  · rw [load_fileOf hrows.recorded hrows.dated, Except.ok.injEq] at hload
    exact hload ▸ hrows
  · cases init with
    | false => simp [XChainSdk.load] at hload
    | true =>
      simp only [XChainSdk.load, if_true, Except.ok.injEq] at hload
      exact hload ▸ hrows

theorem StoreInv.mono {t : ℚ} (ht : t ≤ now) (h : StoreInv M hours t log s) :
    StoreInv M hours now log s :=
  ⟨h.file.mono ht, fun entries he => (h.memory entries he).mono ht⟩

theorem StoreInv.skip (h : StoreInv M hours now log s) (hl : ∀ a ∈ l, a.fate ≠ .returned) :
    StoreInv M hours now (log ++ l) s :=
  ⟨h.file.skip hl, fun entries he => (h.memory entries he).skip hl⟩

/-- Other rows in memory. -/
theorem StoreInv.setMemory (h : StoreInv M hours now log s) (hrows : Rows M hours now log entries) :
    StoreInv M hours now log { s with memory := some entries } :=
  ⟨h.file, fun _ he => Option.some.inj he ▸ hrows⟩

theorem StoreInv.stop (h : FileRows M hours now log file) :
    StoreInv M hours now log ⟨file, none⟩ :=
  ⟨h, fun _ he => nomatch he⟩

theorem record_inv (h : StoreInv M hours now log s) (hrows : Rows M hours now log entries)
    (charge : Charge) (outcome : WriteOutcome) :
    StoreInv M hours now
      (log ++ [⟨charge.entry now, fateOf outcome (record M now s entries charge outcome).2⟩])
      (record M now s entries charge outcome).1 := by
  unfold record
  by_cases hadd : addable M (charge.entry now).amount = true
  · rw [if_pos hadd]
    cases outcome with
    | written =>
      have hpush := hrows.push hadd (by decide : Fate.returned ≠ .refused)
      exact ⟨hpush.fileOf, fun _ he => Option.some.inj he ▸ hpush⟩
    | failed =>
      -- the row stays in memory, the file is as it was
      have hpush := hrows.push hadd (by decide : Fate.unsure ≠ .refused)
      exact (h.skip (by simp [persist, fateOf])).setMemory hpush
    | crashed renamed =>
      have hpush := hrows.push hadd (by decide : Fate.unsure ≠ .refused)
      cases renamed with
      | true => exact StoreInv.stop hpush.fileOf
      | false => exact StoreInv.stop (h.file.skip (by simp [persist, fateOf]))
  · rw [if_neg hadd]
    have hfate : fateOf outcome .threw ≠ .returned := by cases outcome <;> simp [fateOf]
    exact (h.setMemory hrows).skip (by simpa using hfate)

theorem start_inv (h : FileRows M hours now log file) (init : Bool) (outcome : WriteOutcome) :
    StoreInv M hours now log (start M init now file outcome).1 := by
  unfold start
  cases hload : load M init now file with
  | error e => exact StoreInv.stop h
  | ok entries =>
    have hrows := h.load hload
    cases file with
    | absent =>
      cases outcome with
      | written => exact ⟨hrows.fileOf, fun _ he => Option.some.inj he ▸ hrows⟩
      | failed => exact StoreInv.stop h
      | crashed renamed =>
        cases renamed with
        | true => exact StoreInv.stop hrows.fileOf
        | false => exact StoreInv.stop h
    | unreadable => exact ⟨h, fun _ he => Option.some.inj he ▸ hrows⟩
    | entries rows => exact ⟨h, fun _ he => Option.some.inj he ▸ hrows⟩

theorem snapshotExcludingTxid_rows (txid : Option String) (entries : List WindowEntry) :
    (snapshotExcludingTxid M hours now txid entries).1 = entries ∨
      (snapshotExcludingTxid M hours now txid entries).1 = XChainSdk.pruned hours now entries := by
  unfold snapshotExcludingTxid
  split
  · exact .inl rfl
  · exact .inl rfl
  · exact .inr rfl

/-- One step keeps the rows of file and memory accounted for. -/
theorem step_inv {t : ℚ} (ht : t ≤ now) (h : StoreInv M hours t log s) (op : Op) :
    StoreInv M hours now (log ++ attemptOf now (step M hours s now op).2 op)
      (step M hours s now op).1 := by
  have hnow := h.mono ht
  have hrefused : ∀ outcome, fateOf outcome .threw ≠ .returned := by
    intro outcome
    cases outcome <;> simp [fateOf]
  cases op with
  | restart init outcome =>
    simp only [attemptOf, List.append_nil]
    exact start_inv hnow.file init outcome
  | record charge owned outcome =>
    cases hm : s.memory with
    | none =>
      simp only [step, hm, attemptOf]
      exact hnow.skip (by simpa using hrefused outcome)
    | some entries =>
      simp only [step, hm, attemptOf]
      cases owned with
      | true =>
        simp only [if_true]
        exact record_inv hnow (hnow.memory entries hm).pruned charge outcome
      | false => exact hnow.skip (by simpa using hrefused outcome)
  | snapshot =>
    cases hm : s.memory with
    | none => simpa [step, hm, attemptOf] using hnow
    | some entries =>
      simp only [step, hm, attemptOf, List.append_nil]
      exact hnow.setMemory (hnow.memory entries hm).pruned
  | snapshotExcludingTxid txid =>
    cases hm : s.memory with
    | none => simpa [step, hm, attemptOf] using hnow
    | some entries =>
      simp only [step, hm, attemptOf, List.append_nil]
      have hrows := hnow.memory entries hm
      refine hnow.setMemory ?_
      rcases snapshotExcludingTxid_rows (M := M) txid entries with he | he <;> rw [he]
      · exact hrows
      · exact hrows.pruned

/-- The times of a run do not decrease and stay below `now`. -/
def ClockUpTo (now : ℚ) (ops : List (ℚ × Op)) : Prop :=
  (ops.map Prod.fst).Pairwise (· ≤ ·) ∧ ∀ e ∈ ops, e.1 ≤ now

/-- The induction is on the steps, the last one first; the invariant is kept at its time. -/
theorem accounted_run {ops : List (ℚ × Op)} (h : ClockUpTo now ops) :
    StoreInv M hours now (run M hours ops).log (run M hours ops).store := by
  induction ops using List.reverseRecOn generalizing now with
  | nil =>
    have hrows : Rows M hours now [] [] := ⟨by simp, by simp, [], Kept.nil, rfl⟩
    exact ⟨⟨[], .inr ⟨rfl, rfl⟩, hrows⟩, fun _ he => nomatch he⟩
  | append_singleton ops e ih =>
    obtain ⟨hsorted, hle⟩ := h
    rw [List.map_append, List.pairwise_append] at hsorted
    have hbefore : ClockUpTo e.1 ops := ⟨hsorted.1, fun x hx =>
      hsorted.2.2 x.1 (List.mem_map_of_mem hx) e.1 (by simp)⟩
    have hstep := step_inv le_rfl (ih hbefore) e.2
    have hrun : run M hours (ops ++ [e]) = runStep M hours (run M hours ops) e := by
      rw [run, List.foldl_append]
      rfl
    rw [hrun]
    exact hstep.mono (hle e (by simp))

end Invariant

/-! ### What a snapshot counts -/

/-- The snapshot counts each of these charges that is within the window, once, and its totals are
exact while the sums fit the package's digits. -/
structure Counts (M : MathJs) (hours now : ℚ) (kept : List Attempt) (u : WindowUsage) : Prop where
  count : u.count = (pruned hours now (kept.map Attempt.entry)).length
  perTick : (∀ a ∈ kept, Numeric M a.entry) → ∀ key,
    (∀ l, l <+: amountsAt M key (pruned hours now (kept.map Attempt.entry)) →
      FitsSig BIGNUMBER_PRECISION l.sum) →
    M.value ((u.perTick.get? key).getD "0") =
      some (amountsAt M key (pruned hours now (kept.map Attempt.entry))).sum

theorem counts_of_accounted {log : List Attempt} {entries : List WindowEntry}
    (h : Accounted hours now log entries) :
    ∃ kept, Kept log kept ∧
      Counts M hours now kept (snapshot M none (pruned hours now entries)) := by
  obtain ⟨kept, hk, he⟩ := h
  refine ⟨kept, hk, ?_, fun hnum key hfit => ?_⟩
  · rw [he]
    rfl
  · have hrows : ∀ e ∈ pruned hours now (kept.map Attempt.entry), Numeric M e := by
      intro e hmem
      obtain ⟨a, ha, rfl⟩ := List.mem_map.1 (List.mem_of_mem_filter hmem)
      exact hnum a ha
    rw [he]
    exact totals_value hrows hfit

theorem pruned_snapshotExcludingTxid {later : ℚ} (h : now ≤ later) (txid : Option String)
    (entries : List WindowEntry) :
    pruned hours later (snapshotExcludingTxid M hours now txid entries).1 =
      pruned hours later entries := by
  rcases snapshotExcludingTxid_rows (M := M) txid entries with he | he <;> rw [he]
  exact pruned_pruned h entries

/-- **Durability of the window ledger.**  After any run, a snapshot counts every charge that
returned and is within the window exactly once, and beyond these only charges whose write failed;
so does a restart.  When no write failed, a restart finds the same window.  A read with an excluded
txid changes no later snapshot, and a load keeps every row of the file or throws. -/
theorem window_durable (M : MathJs) (hours now : ℚ) (ops : List (ℚ × Op))
    (h : ClockUpTo now ops) :
    (∀ entries, (run M hours ops).store.memory = some entries →
      ∃ kept, Kept (run M hours ops).log kept ∧
        Counts M hours now kept (snapshot M none (pruned hours now entries))) ∧
    (∀ init entries, load M init now (run M hours ops).store.file = .ok entries →
      ∃ kept, Kept (run M hours ops).log kept ∧
        Counts M hours now kept (snapshot M none (pruned hours now entries))) ∧
    ((∀ a ∈ (run M hours ops).log, a.fate ≠ .unsure) → ∀ init entries loaded,
      (run M hours ops).store.memory = some entries →
      load M init now (run M hours ops).store.file = .ok loaded →
        pruned hours now loaded = pruned hours now entries ∧ pruned hours now entries =
          pruned hours now (((run M hours ops).log.filter Attempt.returned).map Attempt.entry)) ∧
    (∀ later txid entries, now ≤ later →
      pruned hours later (snapshotExcludingTxid M hours now txid entries).1 =
        pruned hours later entries) ∧
    (∀ init rows loaded, load M init now (.entries rows) = .ok loaded →
      List.Forall₂ (LoadedRow M now) rows loaded) := by
  have hinv : StoreInv M hours now (run M hours ops).log (run M hours ops).store := accounted_run h
  refine ⟨fun entries hm => counts_of_accounted (hinv.memory entries hm).accounted,
    fun init entries hload => counts_of_accounted (hinv.file.load hload).accounted,
    fun hsure init entries loaded hm hload => ?_,
    fun later txid entries hle => pruned_snapshotExcludingTxid hle txid entries,
    fun init rows loaded hload => load_entries hload⟩
  obtain ⟨kept, hk, he⟩ := (hinv.memory entries hm).accounted
  obtain ⟨kept', hk', he'⟩ := (hinv.file.load hload).accounted
  rw [he, he', hk.eq hsure, hk'.eq hsure]
  exact ⟨rfl, rfl⟩

/-! ### A write that fails -/

/-- Five units of a token. -/
def fiveUnits : Charge := ⟨"SEND", some "TOK", some "5", none⟩

/-- A store is created, and the write of its first charge fails. -/
def failedWrite : List (ℚ × Op) :=
  [(0, .restart true .written), (0, .record fiveUnits true .failed)]

/-- The row stays in memory although nothing returned. -/
theorem run_failedWrite : (run plainMath 24 failedWrite).store.memory = some [fiveUnits.entry 0] ∧
    (run plainMath 24 failedWrite).log.filter Attempt.returned = [] := by
  have hadd : addable plainMath (fiveUnits.entry 0).amount = true := by decide
  simp [run, failedWrite, runStep, step, start, load, persist, record, hadd, pruned, attemptOf,
    fateOf, Attempt.returned]

theorem window_durable_failedWrite :
    ∃ kept, Kept (run plainMath 24 failedWrite).log kept ∧
      Counts plainMath 24 0 kept (snapshot plainMath none (pruned 24 0 [fiveUnits.entry 0])) :=
  (window_durable plainMath 24 0 failedWrite
    ⟨by simp [failedWrite], by simp [failedWrite]⟩).1 _ run_failedWrite.1

/-- A charge whose write failed is counted until the restart, and not after it. -/
theorem failed_write_counted :
    ¬ ∀ (M : MathJs) (hours now : ℚ) (ops : List (ℚ × Op)) (entries : List WindowEntry),
      ClockUpTo now ops → (run M hours ops).store.memory = some entries →
      (snapshot M none (pruned hours now entries)).count =
        (pruned hours now
          (((run M hours ops).log.filter Attempt.returned).map Attempt.entry)).length ∧
      ∀ init loaded, load M init now (run M hours ops).store.file = .ok loaded →
        (snapshot M none (pruned hours now loaded)).count =
          (snapshot M none (pruned hours now entries)).count := by
  intro hall
  have hcount := (hall plainMath 24 0 failedWrite _
    ⟨by simp [failedWrite], by simp [failedWrite]⟩ run_failedWrite.1).1
  rw [run_failedWrite.2] at hcount
  have hlive : live 24 0 (fiveUnits.entry 0) = true := by decide +kernel
  simp [snapshot, totals, pruned, hlive] at hcount

end XChainSdk
