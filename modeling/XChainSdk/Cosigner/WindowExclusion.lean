import Mathlib
import XChainSdk.Cosigner.WindowLock

/-!
# Mutual exclusion on the state file

* `starterMeets` : no reclaiming rename takes the lock away from a live store that holds it.
* `StoreSafe`, `WorldSafe` : a live store that holds has its lock at the name, and its rows cover
  what returned.
* `stepWorld_safe` : a step that meets the condition keeps the invariant.
* `window_lock_safe` : at most one store is open, and rows that returned only age out.
-/

namespace XChainSdk

open Function (update)

/-- The lock is created and not yet written. -/
def Pc.isFilling : Pc → Bool
  | .filling => true
  | _ => false

/-- The store has rows in memory. -/
def Pc.loaded : Pc → Bool
  | .ready | .owning .. | .fencing _ | .writing _ | .replacing _ => true
  | _ => false

/-- A call that needs the lock is running. -/
def Pc.busy : Pc → Bool
  | .loading | .owning .. | .fencing _ | .writing _ | .replacing _ | .releasing _ | .unlinking _ =>
    true
  | _ => false

/-- The write that is under way. -/
def Pc.task? : Pc → Option WriteTask
  | .fencing task | .writing task | .replacing task => some task
  | _ => none

/-- The constructor returned. -/
def Pc.constructed : Pc → Bool
  | .ready | .owning .. | .releasing true | .unlinking true => true
  | .fencing (.record _) | .writing (.record _) | .replacing (.record _) => true
  | _ => false

/-- The store holds the lock, or is about to. -/
def Proc.owns (p : Proc) : Bool := p.live && (p.holding || p.pc.isFilling)

/-- The constructor returned and the store is not released. -/
def Proc.opened (p : Proc) : Bool := p.live && p.holding && p.pc.constructed

/-- The rows of the state file. -/
def WindowFile.entries : WindowFile → List Row
  | .rows l => l
  | _ => []

/-- The same row, dated as the clock guards left it. -/
def Row.Same (r r' : Row) : Prop :=
  r'.call = r.call ∧ r'.entry = { r.entry with t := r'.entry.t }

/-- What returned is among the rows or has aged out. -/
def Covers (w : World) (rows : List Row) : Prop :=
  ∀ r ∈ w.returned, (∃ r' ∈ rows, r.Same r') ∨ r.call ∈ w.aged

/-- The lock at the name is not that of a store that holds it. -/
def World.stale (w : World) : Bool :=
  match w.lock with
  | some k => !(w.procs k).owns
  | none => true

/-- What a step has to meet, on the state before it: a rename away from the lock's name, or onto it,
meets no live holder, and a released store does not charge. -/
def starterMeets (w : World) (e : ℕ × StoreEvent) : Bool :=
  match e.2, (w.procs e.1).pc with
  | .call _, .carrying .. => w.stale
  | .call _, .puttingBack => w.stale
  | .record _, .ready => (w.procs e.1).holding
  | _, _ => true

/-! ### The invariant -/

/-- What holds of one store. -/
structure StoreSafe (w : World) (i : ℕ) : Prop where
  lock : (w.procs i).owns = true → w.lock = some i
  busy : (w.procs i).live = true → (w.procs i).pc.busy = true → (w.procs i).holding = true
  rows : (w.procs i).live = true → (w.procs i).holding = true → (w.procs i).pc.loaded = true →
    Covers w (w.procs i).rows
  pushed : (w.procs i).live = true → ∀ r, (w.procs i).pc.task? = some (.record r) →
    r ∈ (w.procs i).rows
  tmp : (w.procs i).live = true → ∀ task, (w.procs i).pc = .replacing task →
    w.tmp = some (w.procs i).rows

/-- What holds of all stores and of the state file. -/
structure WorldSafe (w : World) : Prop where
  file : Covers w w.file.entries
  stores : ∀ i, StoreSafe w i

variable {S : Starters} {w X : World} {i j : ℕ} {p : Proc} {pc : Pc} {env : Env}
  {rows : List Row}

theorem Proc.owns_of_holding (hl : p.live = true) (hh : p.holding = true) : p.owns = true := by
  simp [Proc.owns, hl, hh]

/-- Where nothing is created, holding is all. -/
theorem Proc.owns_iff (hpc : p.pc.isFilling = false) :
    p.owns = true ↔ p.live = true ∧ p.holding = true := by
  simp [Proc.owns, hpc]

theorem Row.same_self (r : Row) : r.Same r := ⟨rfl, rfl⟩

theorem Covers.mono (h : Covers w rows) (hret : X.returned = w.returned)
    (haged : w.aged ⊆ X.aged) : Covers X rows := by
  intro r hr
  rw [hret] at hr
  exact (h r hr).imp_right fun hmem => haged hmem

theorem busy_of_replacing {task : WriteTask} (h : pc = .replacing task) : pc.busy = true := by
  rw [h]
  rfl

/-- Other stores see a step only through the lock, the temporary file and what returned, and those
change under no other holder. -/
theorem StoreSafe.frame (h : StoreSafe w j) (hp : X.procs j = w.procs j) (haged : w.aged ⊆ X.aged)
    (hkeep : (w.procs j).owns = true →
      X.lock = w.lock ∧ X.returned = w.returned ∧ X.tmp = w.tmp) : StoreSafe X j := by
  refine ⟨fun ho => ?_, fun hl hb => ?_, fun hl hh hload => ?_, fun hl k hk => ?_,
    fun hl task ht => ?_⟩
  · rw [hp] at ho
    rw [(hkeep ho).1]
    exact h.lock ho
  · rw [hp] at hl hb ⊢
    exact h.busy hl hb
  · rw [hp] at hl hh hload ⊢
    exact (h.rows hl hh hload).mono (hkeep (Proc.owns_of_holding hl hh)).2.1 haged
  · rw [hp] at hl hk ⊢
    exact h.pushed hl k hk
  · rw [hp] at hl ht ⊢
    have hh := h.busy hl (busy_of_replacing ht)
    rw [(hkeep (Proc.owns_of_holding hl hh)).2.2]
    exact h.tmp hl task ht

/-- Nobody else holds beside a holder. -/
theorem WorldSafe.alone (h : WorldSafe w) (hi : (w.procs i).owns = true) (j : ℕ) (hj : j ≠ i) :
    (w.procs j).owns = false := by
  cases ho : (w.procs j).owns with
  | false => rfl
  | true =>
    have hlock := (h.stores i).lock hi
    rw [(h.stores j).lock ho, Option.some.injEq] at hlock
    exact absurd hlock hj

/-- Nobody holds when the lock at the name is stale. -/
theorem WorldSafe.nobody (h : WorldSafe w) (hs : w.stale = true) (j : ℕ) :
    (w.procs j).owns = false := by
  cases ho : (w.procs j).owns with
  | false => rfl
  | true => simp [World.stale, (h.stores j).lock ho, ho] at hs

theorem stale_of_none (h : w.lock = none) : w.stale = true := by
  simp [World.stale, h]

/-- A step of one store: the files may change under no other holder. -/
theorem WorldSafe.act (h : WorldSafe w) (hX : X.procs = w.procs) (haged : w.aged ⊆ X.aged)
    (hkeep : (∀ j, j ≠ i → (w.procs j).owns = false) ∨
      X.lock = w.lock ∧ X.returned = w.returned ∧ X.tmp = w.tmp)
    (hfile : Covers X X.file.entries) (hi : StoreSafe (X.setProc i p) i) :
    WorldSafe (X.setProc i p) where
  file := hfile
  stores := fun j => by
    by_cases hj : j = i
    · exact hj ▸ hi
    · refine (h.stores j).frame ?_ haged fun ho => ?_
      · rw [X.setProc_of_ne p hj, hX]
      · rcases hkeep with hnobody | hsame
        · rw [hnobody j hj] at ho
          cases ho
        · exact hsame

/-- Files that only the stores outside look at. -/
theorem WorldSafe.files (h : WorldSafe w) (hX : X.procs = w.procs) (haged : X.aged = w.aged)
    (hret : X.returned = w.returned) (htmp : X.tmp = w.tmp) (hfile : X.file = w.file)
    (hlock : X.lock = w.lock ∨ w.stale = true) : WorldSafe X where
  file := by
    rw [hfile]
    exact h.file.mono hret fun _ hk => haged ▸ hk
  stores := fun j => (h.stores j).frame (by rw [hX]) (fun _ hk => haged ▸ hk) fun ho => by
    rcases hlock with hlock | hs
    · exact ⟨hlock, hret, htmp⟩
    · rw [h.nobody hs j] at ho
      cases ho

/-! ### Moves of one store -/

/-- The store after the step, from what it is. -/
theorem StoreSafe.of_proc (hlock : p.owns = true → X.lock = some i)
    (hbusy : p.live = true → p.pc.busy = true → p.holding = true)
    (hrows : p.live = true → p.holding = true → p.pc.loaded = true → Covers X p.rows)
    (hpushed : p.live = true → ∀ r, p.pc.task? = some (.record r) → r ∈ p.rows)
    (htmp : p.live = true → ∀ task, p.pc = .replacing task → X.tmp = some p.rows) :
    StoreSafe (X.setProc i p) i := by
  have hp : (X.setProc i p).procs i = p := X.setProc_self i p
  constructor <;> rw [hp]
  · exact hlock
  · exact hbusy
  · exact hrows
  · exact hpushed
  · exact htmp

/-- Without rows in memory, the lock is all that matters. -/
theorem StoreSafe.of_unloaded (hpc : p.pc.loaded = false)
    (hlock : p.owns = true → X.lock = some i)
    (hbusy : p.live = true → p.pc.busy = true → p.holding = true) :
    StoreSafe (X.setProc i p) i := by
  refine .of_proc hlock hbusy (fun _ _ hload => ?_) (fun _ r hr => ?_) (fun _ task ht => ?_)
  · rw [hpc] at hload
    cases hload
  · cases h : p.pc <;> simp_all [Pc.loaded, Pc.task?]
  · rw [ht] at hpc
    cases hpc

/-- The store waits for the lock, or threw. -/
def Pc.outside (pc : Pc) : Bool := !pc.loaded && !pc.busy && !pc.isFilling

theorem WorldSafe.goto_outside (h : WorldSafe w) (i : ℕ) (hpc : pc.outside = true) :
    WorldSafe (w.goto i pc) := by
  simp only [Pc.outside, Bool.and_eq_true, Bool.not_eq_true'] at hpc
  refine h.act rfl (fun _ hk => hk) (.inr ⟨rfl, rfl, rfl⟩) h.file
    (.of_unloaded hpc.1.1 (fun ho => ?_) fun _ hb => ?_)
  · obtain ⟨hl, hh⟩ := (Proc.owns_iff hpc.2).1 ho
    exact (h.stores i).lock (Proc.owns_of_holding hl hh)
  · rw [hpc.1.2] at hb
    cases hb

theorem WorldSafe.retry (h : WorldSafe w) (i : ℕ) (last : Bool) : WorldSafe (w.retry i last) := by
  cases last <;> exact h.goto_outside i rfl

/-- A store that is alone takes the lock. -/
theorem WorldSafe.hold (h : WorldSafe w) (halone : ∀ j, j ≠ i → (w.procs j).owns = false)
    (hlock : w.lock = some i) : WorldSafe (w.hold i) :=
  h.act rfl (fun _ hk => hk) (.inl halone) h.file
    (.of_unloaded rfl (fun _ => hlock) fun _ _ => rfl)

theorem StoreSafe.letGo (constructed : Bool) : StoreSafe (w.letGo i constructed) i := by
  refine .of_proc ?_ ?_ ?_ ?_ ?_ <;> cases constructed <;>
    simp [Proc.owns, Pc.isFilling, Pc.busy, Pc.task?]

/-- A store leaves. -/
theorem WorldSafe.letGo (h : WorldSafe w) (i : ℕ) (constructed : Bool) :
    WorldSafe (w.letGo i constructed) :=
  h.act rfl (fun _ hk => hk) (.inr ⟨rfl, rfl, rfl⟩) h.file (.letGo constructed)

/-- A holder leaves, and the lock is its own to remove. -/
theorem WorldSafe.unlink (h : WorldSafe w) (ho : (w.procs i).owns = true) (constructed : Bool) :
    WorldSafe ({ w with lock := none }.letGo i constructed) :=
  h.act (X := { w with lock := none }) rfl (fun _ hk => hk) (.inl (h.alone ho)) h.file
    (.letGo constructed)

/-- A holder goes on without its rows. -/
theorem WorldSafe.goto_unloaded (h : WorldSafe w) (hh : (w.procs i).holding = true)
    (hload : pc.loaded = false) (hfill : pc.isFilling = false) : WorldSafe (w.goto i pc) :=
  h.act rfl (fun _ hk => hk) (.inr ⟨rfl, rfl, rfl⟩) h.file
    (.of_unloaded hload
      (fun ho => (h.stores i).lock (Proc.owns_of_holding ((Proc.owns_iff hfill).1 ho).1 hh))
      fun _ _ => hh)

/-- A store goes back to be ready with its rows. -/
theorem WorldSafe.goto_ready (h : WorldSafe w) (hload : (w.procs i).pc.loaded = true) :
    WorldSafe (w.goto i .ready) := by
  refine h.act rfl (fun _ hk => hk) (.inr ⟨rfl, rfl, rfl⟩) h.file (.of_proc (fun ho => ?_) ?_ ?_ ?_ ?_)
  · obtain ⟨hl, hh⟩ := (Proc.owns_iff rfl).1 ho
    exact (h.stores i).lock (Proc.owns_of_holding hl hh)
  · simp [Pc.busy]
  · exact fun hl hh _ => (h.stores i).rows hl hh hload
  · simp [Pc.task?]
  · simp

/-! ### Rows -/

theorem Covers.append (h : Covers w rows) (l : List Row) : Covers w (rows ++ l) := by
  intro r hr
  refine (h r hr).imp_left ?_
  rintro ⟨r', hr', hsame⟩
  exact ⟨r', by simp [hr'], hsame⟩

theorem Row.Same.clamp {r r' : Row} (h : r.Same r') (now : ℚ) :
    r.Same { r' with entry := clampRow now r'.entry } := by
  refine ⟨h.1, ?_⟩
  unfold clampRow
  split_ifs
  · rw [h.2]
  · exact h.2

/-- The clock guards keep every row. -/
theorem Covers.clamp (h : Covers w rows) (now : ℚ) :
    Covers w (rows.map fun (r : Row) => { r with entry := clampRow now r.entry }) := by
  intro r hr
  refine (h r hr).imp_left ?_
  rintro ⟨r', hr', hsame⟩
  exact ⟨_, List.mem_map_of_mem hr', hsame.clamp now⟩

/-- What is pruned is listed as aged out. -/
theorem Covers.prune (hours now : ℚ) (h : Covers w (w.procs i).rows) :
    Covers (w.prune hours now i)
      ((w.procs i).rows.filter fun (r : Row) => live hours now r.entry) := by
  intro r hr
  rcases h r hr with ⟨r', hr', hsame⟩ | haged
  · cases hlive : live hours now r'.entry with
    | true => exact .inl ⟨r', List.mem_filter.2 ⟨hr', hlive⟩, hsame⟩
    | false =>
      have hmem : r' ∈ (w.procs i).rows.filter fun (x : Row) => !live hours now x.entry :=
        List.mem_filter.2 ⟨hr', by simp [hlive]⟩
      exact .inr (List.mem_append_right _ (hsame.1 ▸ List.mem_map_of_mem hmem))
  · exact .inr (List.mem_append_left _ haged)

theorem WorldSafe.prune (h : WorldSafe w) (hours now : ℚ) (hpc : (w.procs i).pc.task? = none) :
    WorldSafe (w.prune hours now i) := by
  have hsub : w.aged ⊆ (w.prune hours now i).aged := fun _ hk => List.mem_append_left _ hk
  refine h.act rfl hsub (.inr ⟨rfl, rfl, rfl⟩) (h.file.mono rfl hsub) (.of_proc ?_ ?_ ?_ ?_ ?_)
  · exact (h.stores i).lock
  · exact (h.stores i).busy
  · exact fun hl hh hload => ((h.stores i).rows hl hh hload).prune hours now
  · intro _ r hr
    rw [hpc] at hr
    cases hr
  · intro _ task ht
    rw [ht] at hpc
    cases hpc

theorem WorldSafe.push (h : WorldSafe w) (hl : (w.procs i).live = true)
    (hh : (w.procs i).holding = true) (hload : (w.procs i).pc.loaded = true) (r : Row) :
    WorldSafe (w.push i r) := by
  refine h.act rfl (fun _ hk => hk) (.inr ⟨rfl, rfl, rfl⟩) h.file (.of_proc ?_ ?_ ?_ ?_ ?_)
  · exact fun _ => (h.stores i).lock (Proc.owns_of_holding hl hh)
  · exact fun _ _ => hh
  · exact fun _ _ _ => ((h.stores i).rows hl hh hload).append [r]
  · intro _ r' hr'
    cases hr'
    simp
  · simp

/-- The state file is written as the rows of a holder, and its charge returns. -/
theorem Covers.returns {X : World} {task : WriteTask} (h : Covers w rows)
    (hret : X.returned = w.returned ++ task.rows) (haged : X.aged = w.aged)
    (hrow : ∀ r, task = .record r → r ∈ rows) : Covers X rows := by
  intro r hr
  rw [hret] at hr
  rcases List.mem_append.1 hr with hr | hr
  · rw [haged]
    exact h r hr
  · cases task with
    | init => cases hr
    | record r' =>
      rw [WriteTask.rows, List.mem_singleton] at hr
      exact .inl ⟨r, hrow r (by rw [hr]), r.same_self⟩

/-! ### The calls -/

theorem releaseStep_safe (h : WorldSafe w) (hl : (w.procs i).live = true)
    (hpc : (w.procs i).pc = pc) : WorldSafe (releaseStep w i pc) := by
  cases pc with
  | releasing constructed =>
    have hh := (h.stores i).busy hl (by rw [hpc]; rfl)
    unfold releaseStep
    dsimp only
    split_ifs
    · exact h.letGo i constructed
    · exact h.goto_unloaded hh rfl rfl
  | unlinking constructed =>
    have hh := (h.stores i).busy hl (by rw [hpc]; rfl)
    exact h.unlink (Proc.owns_of_holding hl hh) constructed
  | _ => exact h

/-- A write that throws leaves the store with its lock. -/
theorem WorldSafe.giveUp (h : WorldSafe w) {task : WriteTask}
    (hh : (w.procs i).holding = true) (hload : (w.procs i).pc.loaded = true) :
    WorldSafe (w.giveUp i task) := by
  cases task with
  | init => exact h.goto_unloaded hh rfl rfl
  | record r => exact h.goto_ready hload

theorem busy_of_task {task : WriteTask} (h : pc.task? = some task) : pc.busy = true := by
  cases pc <;> first | rfl | cases h

theorem loaded_of_task {task : WriteTask} (h : pc.task? = some task) : pc.loaded = true := by
  cases pc <;> first | rfl | cases h

/-- A holder goes on with its write. -/
theorem WorldSafe.goto_write (h : WorldSafe w) {task : WriteTask} {t : Option (List Row)}
    (hl : (w.procs i).live = true) (htask : (w.procs i).pc.task? = some task)
    (hpc : pc.task? = some task) (htmp : ∀ t', pc = .replacing t' → t = some (w.procs i).rows) :
    WorldSafe ({ w with tmp := t }.goto i pc) := by
  have hh := (h.stores i).busy hl (busy_of_task htask)
  have ho := Proc.owns_of_holding hl hh
  refine h.act (X := { w with tmp := t }) rfl (fun _ hk => hk) (.inl (h.alone ho)) h.file
    (.of_proc (fun _ => (h.stores i).lock ho) (fun _ _ => hh)
      (fun _ _ _ => (h.stores i).rows hl hh (loaded_of_task htask)) (fun _ r hr => ?_)
      fun _ t' ht => htmp t' ht)
  have hrow : (w.procs i).pc.task? = some (.record r) := by
    rw [htask, ← hpc]
    exact hr
  exact (h.stores i).pushed hl r hrow

theorem load_safe (h : WorldSafe w) (hl : (w.procs i).live = true)
    (hpc : (w.procs i).pc = .loading) : WorldSafe (ledgerStep S w i env .loading) := by
  have hh := (h.stores i).busy hl (by rw [hpc]; rfl)
  have hlock := (h.stores i).lock (Proc.owns_of_holding hl hh)
  have hfile := h.file
  unfold ledgerStep
  dsimp only
  by_cases hthrows : env.throws = true
  · rw [if_pos hthrows]
    exact h.goto_unloaded hh rfl rfl
  rw [if_neg hthrows]
  cases hf : w.file with
  | absent =>
    rw [hf] at hfile
    dsimp only
    by_cases hinit : S.init i = true
    · rw [if_pos hinit]
      refine h.act rfl (fun _ hk => hk) (.inr ⟨rfl, rfl, rfl⟩) h.file
        (.of_proc (fun _ => hlock) (fun _ _ => hh) (fun _ _ _ => hfile) ?_ ?_)
      · intro _ r hr
        cases hr
      · intro _ task ht
        cases ht
    · rw [if_neg hinit]
      exact h.goto_unloaded hh rfl rfl
  | unreadable => exact h.goto_unloaded hh rfl rfl
  | rows l =>
    rw [hf] at hfile
    refine h.act rfl (fun _ hk => hk) (.inr ⟨rfl, rfl, rfl⟩) h.file
      (.of_proc (fun _ => hlock) (fun _ _ => hh) (fun _ _ _ => hfile.clamp env.now) ?_ ?_)
    · intro _ r hr
      cases hr
    · intro _ task ht
      cases ht

theorem ledgerStep_safe (h : WorldSafe w) (hl : (w.procs i).live = true)
    (hpc : (w.procs i).pc = pc) : WorldSafe (ledgerStep S w i env pc) := by
  cases pc with
  | loading => exact load_safe h hl hpc
  | owning call charge =>
    have hh := (h.stores i).busy hl (by rw [hpc]; rfl)
    have hload : (w.procs i).pc.loaded = true := by rw [hpc]; rfl
    have htask : (w.procs i).pc.task? = none := by rw [hpc]; rfl
    have hprune := h.prune S.hours env.now htask
    have hproc : (w.prune S.hours env.now i).procs i =
        { w.procs i with
          rows := (w.procs i).rows.filter fun (r : Row) => live S.hours env.now r.entry } :=
      World.setProc_self ..
    unfold ledgerStep
    dsimp only
    split_ifs
    · exact h.goto_ready hload
    · exact hprune.goto_ready (by rw [hproc]; exact hload)
    · exact hprune.push (by rw [hproc]; exact hl) (by rw [hproc]; exact hh)
        (by rw [hproc]; exact hload) _
  | fencing task =>
    have hh := (h.stores i).busy hl (by rw [hpc]; rfl)
    unfold ledgerStep
    dsimp only
    split_ifs
    · exact h.giveUp hh (by rw [hpc]; rfl)
    · exact h.goto_write (t := w.tmp) hl (by rw [hpc]; rfl) rfl fun t' ht => nomatch ht
  | writing task =>
    have hh := (h.stores i).busy hl (by rw [hpc]; rfl)
    unfold ledgerStep
    dsimp only
    split_ifs
    · exact h.giveUp hh (by rw [hpc]; rfl)
    · exact h.goto_write hl (by rw [hpc]; rfl) rfl fun _ _ => rfl
  | replacing task =>
    have hh := (h.stores i).busy hl (by rw [hpc]; rfl)
    have ho := Proc.owns_of_holding hl hh
    have hload : (w.procs i).pc.loaded = true := by rw [hpc]; rfl
    unfold ledgerStep
    dsimp only
    split_ifs
    · exact h.giveUp hh hload
    · -- the temporary file holds the rows of this store, which nobody else wrote over
      rw [(h.stores i).tmp hl task hpc]
      have hcovers : Covers { w with
          tmp := none, file := .rows (w.procs i).rows, returned := w.returned ++ task.rows }
          (w.procs i).rows :=
        ((h.stores i).rows hl hh hload).returns rfl rfl fun r hr =>
          (h.stores i).pushed hl r (by rw [hpc, hr]; rfl)
      refine h.act (X := { w with
          tmp := none, file := .rows (w.procs i).rows, returned := w.returned ++ task.rows }) rfl
        (fun _ hk => hk) (.inl (h.alone ho)) hcovers
        (.of_proc (fun _ => (h.stores i).lock ho) (fun _ _ => hh) (fun _ _ _ => hcovers) ?_ ?_)
      · intro _ r hr
        cases hr
      · intro _ t ht
        cases ht
  | _ => exact releaseStep_safe h hl hpc

/-- What a store does on the way to the lock, and when it gives it back. -/
theorem reclaimStep_safe (h : WorldSafe w) (hl : (w.procs i).live = true)
    (hpc : (w.procs i).pc = pc) (hm : starterMeets w (i, .call env) = true) :
    WorldSafe (reclaimStep S w i env pc) := by
  unfold starterMeets at hm
  cases pc with
  | carrying last holder =>
    simp only [hpc] at hm
    unfold reclaimStep
    dsimp only
    split_ifs
    · exact h.retry i last
    · cases hlock : w.lock with
      | none => exact h.retry i last
      | some k =>
        -- The rename takes the lock's file away, stale by the condition on the step.
        have hX : WorldSafe { w with lock := none, carried := update w.carried i (some k) } :=
          h.files rfl rfl rfl rfl rfl (.inr hm)
        exact hX.goto_outside i rfl
  | checking last holder =>
    unfold reclaimStep
    dsimp only
    cases w.carried i with
    | none => exact h.goto_outside i rfl
    | some k =>
      dsimp only
      split_ifs
      · exact h.goto_outside i rfl
      · exact h.goto_outside i rfl
  | reprobing last =>
    unfold reclaimStep
    dsimp only
    split_ifs
    · exact h.goto_outside i rfl
    · exact h.goto_outside i rfl
  | discarding last =>
    have hX : WorldSafe { w with carried := update w.carried i none } :=
      h.files rfl rfl rfl rfl rfl (.inl rfl)
    exact hX.retry i last
  | restoring =>
    unfold reclaimStep
    dsimp only
    split_ifs
    · cases hlock : w.lock with
      | none =>
        -- The link puts the carried file back only where no lock is.
        have hX : WorldSafe { w with lock := w.carried i } :=
          h.files rfl rfl rfl rfl rfl (.inr (stale_of_none hlock))
        exact hX.goto_outside i rfl
      | some k => exact h.goto_outside i rfl
    · exact h.goto_outside i rfl
  | looking =>
    unfold reclaimStep
    dsimp only
    split_ifs
    · exact h.goto_outside i rfl
    · exact h.goto_outside i rfl
  | puttingBack =>
    simp only [hpc] at hm
    unfold reclaimStep
    dsimp only
    split_ifs
    · exact h.goto_outside i rfl
    -- The rename back overwrites what is there, which the condition says is stale.
    · have hX : WorldSafe { w with lock := w.carried i, carried := update w.carried i none } :=
        h.files rfl rfl rfl rfl rfl (.inr hm)
      exact hX.goto_outside i rfl
  | finding =>
    unfold reclaimStep
    dsimp only
    split_ifs
    · exact h.goto_outside i rfl
    · exact h.goto_outside i rfl
  | dropping =>
    have hX : WorldSafe { w with carried := update w.carried i none } :=
      h.files rfl rfl rfl rfl rfl (.inl rfl)
    exact hX.goto_outside i rfl
  | _ =>
    dsimp only [reclaimStep]
    exact ledgerStep_safe h hl hpc

theorem acquireStep_safe (h : WorldSafe w) (hl : (w.procs i).live = true)
    (hpc : (w.procs i).pc = pc) (hm : starterMeets w (i, .call env) = true) :
    WorldSafe (acquireStep S w i env pc) := by
  cases pc with
  | idle => exact h.goto_outside i rfl
  | linking last =>
    unfold acquireStep
    dsimp only
    split_ifs
    · exact h.goto_outside i rfl
    · cases hlock : w.lock with
      | none =>
        have hX : WorldSafe { w with lock := some i } :=
          h.files rfl rfl rfl rfl rfl (.inr (stale_of_none hlock))
        exact hX.hold (fun j _ => h.nobody (stale_of_none hlock) j) rfl
      | some k => exact h.goto_outside i rfl
    · exact h.goto_outside i rfl
  | creating last =>
    unfold acquireStep
    dsimp only
    split_ifs
    · exact h.goto_outside i rfl
    · cases hlock : w.lock with
      | none =>
        -- the lock is its own although its record is not written
        refine h.act (X := { w with lock := some i, filled := update w.filled i false }) rfl
          (fun _ hk => hk) (.inl fun j _ => h.nobody (stale_of_none hlock) j) h.file
          (.of_unloaded rfl (fun _ => rfl) fun _ hb => ?_)
        cases hb
      | some k => exact h.goto_outside i rfl
  | filling =>
    have ho : (w.procs i).owns = true := by simp [Proc.owns, hl, hpc, Pc.isFilling]
    unfold acquireStep
    dsimp only
    split_ifs
    · exact h.goto_outside i rfl
    · exact h.hold (h.alone ho) ((h.stores i).lock ho)
  | reading last =>
    unfold acquireStep
    dsimp only
    cases w.lock with
    | none => exact h.goto_outside i rfl
    | some k =>
      dsimp only
      split_ifs
      · exact h.goto_outside i rfl
      · exact h.goto_outside i rfl
  | probing last holder =>
    unfold acquireStep
    dsimp only
    split_ifs
    · exact h.goto_outside i rfl
    · exact h.goto_outside i rfl
  | _ =>
    dsimp only [acquireStep]
    exact reclaimStep_safe h hl hpc hm

/-! ### Runs -/

/-- One event keeps the invariant when it meets the condition. -/
theorem stepWorld_safe (h : WorldSafe w) (e : ℕ × StoreEvent) (hm : starterMeets w e = true) :
    WorldSafe (stepWorld S w e) := by
  obtain ⟨i, event⟩ := e
  unfold stepWorld
  dsimp only
  by_cases hl : (w.procs i).live = true
  swap
  · rw [if_neg hl]
    exact h
  rw [if_pos hl]
  cases event with
  | call env => exact acquireStep_safe h hl rfl hm
  | crash =>
    refine h.act rfl (fun _ hk => hk) (.inr ⟨rfl, rfl, rfl⟩) h.file (.of_proc ?_ ?_ ?_ ?_ ?_) <;>
      simp [Proc.owns]
  | record charge =>
    cases hpc : (w.procs i).pc with
    | ready =>
      have hh : (w.procs i).holding = true := by
        unfold starterMeets at hm
        simpa [hpc] using hm
      refine h.act (X := { w with calls := w.calls + 1 }) rfl (fun _ hk => hk)
        (.inr ⟨rfl, rfl, rfl⟩) h.file
        (.of_proc (fun _ => (h.stores i).lock (Proc.owns_of_holding hl hh)) (fun _ _ => hh)
          (fun _ _ _ => (h.stores i).rows hl hh (by rw [hpc]; rfl)) ?_ ?_)
      · intro _ r hr
        cases hr
      · intro _ task ht
        cases ht
    | _ => exact h
  | snapshot now =>
    cases hpc : (w.procs i).pc with
    | ready => exact h.prune S.hours now (by rw [hpc]; rfl)
    | _ => exact h
  | release =>
    cases hpc : (w.procs i).pc with
    | ready =>
      dsimp only
      split_ifs with hh
      · exact h.goto_unloaded hh rfl rfl
      · exact h
    | _ => exact h
  | exit =>
    cases hpc : (w.procs i).pc with
    | ready =>
      -- the hook removes the lock by name, which is this store's own
      have hkeep : (∀ j, j ≠ i → (w.procs j).owns = false) ∨
          (if (w.procs i).holding = true then none else w.lock) = w.lock ∧
            w.returned = w.returned ∧ w.tmp = w.tmp := by
        by_cases hh : (w.procs i).holding = true
        · exact .inl (h.alone (Proc.owns_of_holding hl hh))
        · exact .inr ⟨if_neg hh, rfl, rfl⟩
      refine h.act (X := { w with lock := if (w.procs i).holding = true then none else w.lock }) rfl
        (fun _ hk => hk) hkeep h.file (.of_proc ?_ ?_ ?_ ?_ ?_) <;> simp [Proc.owns]
    | _ => exact h

theorem worldSafe_start (stale : ℕ) (filled : Bool) (file : WindowFile) :
    WorldSafe (World.start stale filled file) := by
  refine ⟨fun r hr => (nomatch hr), fun i => ?_⟩
  by_cases hi : i = stale <;>
    constructor <;> simp [World.start, hi, Proc.owns, Pc.isFilling, Pc.busy, Pc.task?]

theorem Proc.owns_of_opened (h : p.opened = true) : p.owns = true := by
  simp only [Proc.opened, Bool.and_eq_true] at h
  exact Proc.owns_of_holding h.1.1 h.1.2

/-- At most one store is open. -/
def Exclusive (w : World) : Prop :=
  ∀ i j, (w.procs i).opened = true → (w.procs j).opened = true → i = j

/-- **Mutual exclusion and durability.**  In every run from a stale lock whose steps meet the
condition, at most one store is open, and every row that returned is in the state file or was
pruned as too old. -/
theorem window_lock_safe (S : Starters) (stale : ℕ) (filled : Bool) (file : WindowFile)
    (events : List (ℕ × StoreEvent))
    (hmeet : Runs.Along (stepWorld S) (fun w e => starterMeets w e = true)
      (World.start stale filled file) events) :
    Exclusive (events.foldl (stepWorld S) (World.start stale filled file)) ∧
      Covers (events.foldl (stepWorld S) (World.start stale filled file))
        (events.foldl (stepWorld S) (World.start stale filled file)).file.entries := by
  have hsafe : WorldSafe (events.foldl (stepWorld S) (World.start stale filled file)) :=
    hmeet.inv (fun w e h hm => stepWorld_safe h e hm) (worldSafe_start stale filled file)
  refine ⟨fun i j hi hj => ?_, hsafe.file⟩
  have hlock := (hsafe.stores i).lock (Proc.owns_of_opened hi)
  rw [(hsafe.stores j).lock (Proc.owns_of_opened hj), Option.some.injEq] at hlock
  exact hlock.symm

/-! ### Two starters and three -/

/-- Processes of their own. -/
def ownPids : Starters := ⟨Nat.succ, fun _ => false, 24⟩

/-- A charge without an amount. -/
def plainCharge : Charge := ⟨"MINT", none, none, none⟩

/-- The next calls of a store. -/
def calls (i n : ℕ) : List (ℕ × StoreEvent) := List.replicate n (i, .call {})

/-- One store takes a stale lock over and charges, and another is refused. -/
def takeover : List (ℕ × StoreEvent) :=
  calls 1 10 ++ [(1, .record plainCharge)] ++ calls 1 4 ++ calls 2 3 ++ [(2, .call { alive := true })]

theorem window_lock_safe_takeover :
    Exclusive (takeover.foldl (stepWorld ownPids) (World.start 0 true (.rows []))) :=
  (window_lock_safe ownPids 0 true (.rows []) takeover (by decide)).1

/-- A probe finds every process that is alive. -/
def HonestProbe (S : Starters) (w : World) (e : ℕ × StoreEvent) : Prop :=
  match e.2, (w.procs e.1).pc with
  | .call env, .probing _ holder =>
    env.alive = false → ∀ k, (w.procs k).live = true → S.pid k ≠ S.pid holder
  | .call env, .reprobing _ =>
    env.alive = false → ∀ c ∈ w.carried e.1, ∀ k, (w.procs k).live = true → S.pid k ≠ S.pid c
  | _, _ => True

/-- Only dead stores are probed without a process. -/
def probesDead (w : World) (e : ℕ × StoreEvent) : Bool :=
  match e.2, (w.procs e.1).pc with
  | .call env, .probing _ holder => env.alive || !(w.procs holder).live
  | .call env, .reprobing _ =>
    match w.carried e.1 with
    | some c => env.alive || !(w.procs c).live
    | none => true
  | _, _ => true

theorem honestProbe_of_probesDead {e : ℕ × StoreEvent} (h : probesDead w e = true) :
    HonestProbe ownPids w e := by
  have hpid : ∀ {env : Env} {c k : ℕ}, (env.alive || !(w.procs c).live) = true →
      env.alive = false → (w.procs k).live = true → ownPids.pid k ≠ ownPids.pid c := by
    intro env c k hdead ha hk heq
    have hkc : k = c := Nat.succ.inj heq
    rw [← hkc, hk, ha] at hdead
    cases hdead
  obtain ⟨i, event⟩ := e
  cases event with
  | call env =>
    cases hpc : (w.procs i).pc with
    | probing last holder =>
      simp only [probesDead, hpc] at h
      simp only [HonestProbe, hpc]
      exact fun ha k hk => hpid h ha hk
    | reprobing last =>
      simp only [probesDead, hpc] at h
      simp only [HonestProbe, hpc]
      intro ha c hc k hk
      rw [Option.mem_def.1 hc] at h
      exact hpid h ha hk
    | _ => simp [HonestProbe, hpc]
  | _ => simp [HonestProbe]

/-- Two stores find the same dead holder.  The first takes the lock over and is about to write a
charge when the second carries its lock away; a third takes the free name and charges. -/
def threeStarters : List (ℕ × StoreEvent) :=
  calls 1 4 ++ calls 2 4 ++ calls 1 6 ++ [(1, .record plainCharge)] ++ calls 1 3 ++
    calls 2 2 ++ calls 3 3 ++ calls 1 1 ++ [(3, .record plainCharge)] ++ calls 3 4

theorem threeStarters_honest : Runs.Along (stepWorld ownPids) (HonestProbe ownPids)
    (World.start 0 true (.rows [])) threeStarters :=
  Runs.Along.imp (P := fun w e => probesDead w e = true)
    (fun _ _ h => honestProbe_of_probesDead h) (by decide)

/-- Two stores are open, and a charge that returned is neither in the file nor too old. -/
theorem three_starters_unsafe :
    (¬ ∀ (S : Starters) (stale : ℕ) (filled : Bool) (file : WindowFile)
      (events : List (ℕ × StoreEvent)),
      Runs.Along (stepWorld S) (HonestProbe S) (World.start stale filled file) events →
      Exclusive (events.foldl (stepWorld S) (World.start stale filled file))) ∧
    ¬ ∀ (S : Starters) (stale : ℕ) (filled : Bool) (file : WindowFile)
      (events : List (ℕ × StoreEvent)),
      Runs.Along (stepWorld S) (HonestProbe S) (World.start stale filled file) events →
      Covers (events.foldl (stepWorld S) (World.start stale filled file))
        (events.foldl (stepWorld S) (World.start stale filled file)).file.entries := by
  constructor
  · intro hall
    have hexcl := hall ownPids 0 true (.rows []) threeStarters threeStarters_honest
    exact absurd (hexcl 1 3 (by decide) (by decide)) (by decide)
  · intro hall
    have hcovers := hall ownPids 0 true (.rows []) threeStarters threeStarters_honest
    have hlost : (threeStarters.foldl (stepWorld ownPids)
        (World.start 0 true (.rows []))).returned.any (fun r => r.call == 0) = true ∧
        (threeStarters.foldl (stepWorld ownPids)
          (World.start 0 true (.rows []))).file.entries.all (fun r => r.call != 0) = true ∧
        (threeStarters.foldl (stepWorld ownPids) (World.start 0 true (.rows []))).aged = [] := by
      decide
    obtain ⟨hret, hfile, haged⟩ := hlost
    obtain ⟨r, hr, hcall⟩ := List.any_eq_true.1 hret
    rcases hcovers r hr with ⟨r', hr', hsame⟩ | hmem
    · have hne := List.all_eq_true.1 hfile r' hr'
      rw [hsame.1, beq_iff_eq.1 hcall] at hne
      cases hne
    · rw [haged] at hmem
      cases hmem

end XChainSdk
