import XChainSdk.Lib.Loop

/-!
# Worker pools

Workers take the items of a list one after another and work on them side by side; a failure stops
the taking.

* `WorkerPool.step` : a worker takes the next item, or the work on an item settles.
* `WorkerPool.outcome` : what the pool comes to, once it has come to an end.
* `WorkerPool.outcome_of_total` : **the results stand in the order of the items, one for each**.
-/

/-- A pool that works on the items of a list. -/
structure WorkerPool (ε β : Type) where
  /-- the item that is taken next -/
  next : ℕ
  /-- the items that are worked on -/
  running : List ℕ
  results : List (Option β)
  failed : Option ε

namespace WorkerPool

/-- What happens next. -/
inductive Move
  | take
  | settle (i : ℕ)

variable {ε α β : Type}

/-- Before the first item is taken. -/
def start (n : ℕ) : WorkerPool ε β := ⟨0, [], List.replicate n none, none⟩

/-- One move; `none` is a move that cannot happen. -/
def step (limit : ℕ) (fn : ℕ → α → Except ε β) (items : List α) (s : WorkerPool ε β) :
    Move → Option (WorkerPool ε β)
  | .take =>
    if s.failed.isNone ∧ s.next < items.length ∧ s.running.length < limit then
      some { s with next := s.next + 1, running := s.next :: s.running }
    else none
  | .settle i =>
    if i ∈ s.running then
      items[i]?.map fun a =>
        match fn i a with
        | .ok v => { s with running := s.running.erase i, results := s.results.set i (some v) }
        -- the first failure is the one that is reported
        | .error e => { s with running := s.running.erase i, failed := s.failed.or (some e) }
    else none

/-- The pool after the moves. -/
def run (limit : ℕ) (fn : ℕ → α → Except ε β) (items : List α) (moves : List Move) :
    Option (WorkerPool ε β) :=
  moves.foldlM (step limit fn items) (start items.length)

/-- What the pool comes to; `none` while it is still at work. -/
def outcome (items : List α) (s : WorkerPool ε β) : Option (Except ε (List β)) :=
  match s.failed with
  | some e => some (.error e)
  | none =>
    if s.next = items.length ∧ s.running = [] then (s.results.mapM id).map .ok else none

/-- What holds of a pool whose work cannot fail. -/
structure Inv (g : ℕ → α → β) (items : List α) (s : WorkerPool ε β) : Prop where
  sound : s.failed = none
  bound : s.next ≤ items.length
  length : s.results.length = items.length
  fresh : s.running.Nodup ∧ ∀ i ∈ s.running, i < s.next
  /-- an item that was taken is worked on or has its result -/
  taken : ∀ i a, items[i]? = some a → i < s.next → i ∉ s.running →
    s.results[i]? = some (some (g i a))

variable {limit : ℕ} {fn : ℕ → α → Except ε β} {g : ℕ → α → β} {items : List α}
  {s s' : WorkerPool ε β}

theorem inv_start : Inv g items (start items.length : WorkerPool ε β) where
  sound := rfl
  bound := Nat.zero_le _
  length := List.length_replicate
  fresh := ⟨List.nodup_nil, fun i hi => absurd hi List.not_mem_nil⟩
  taken := fun i a _ hi => absurd hi (Nat.not_lt_zero i)

theorem Inv.step (hfn : ∀ i a, items[i]? = some a → fn i a = .ok (g i a)) (h : Inv g items s)
    {m : Move} (hs : step limit fn items s m = some s') : Inv g items s' := by
  cases m with
  | take =>
    simp only [WorkerPool.step] at hs
    split_ifs at hs with hc
    cases hs
    have hnot : s.next ∉ s.running := fun hi => Nat.lt_irrefl _ (h.fresh.2 _ hi)
    refine ⟨h.sound, hc.2.1, h.length, ⟨List.nodup_cons.2 ⟨hnot, h.fresh.1⟩, fun i hi => ?_⟩,
      fun i a ha hi hrun => ?_⟩
    · rcases List.mem_cons.1 hi with rfl | hi
      · exact Nat.lt_succ_self _
      · exact Nat.lt_succ_of_lt (h.fresh.2 i hi)
    · rw [List.mem_cons, not_or] at hrun
      exact h.taken i a ha (Nat.lt_of_le_of_ne (Nat.le_of_lt_succ hi) hrun.1) hrun.2
  | settle i =>
    simp only [WorkerPool.step] at hs
    split_ifs at hs with hi
    obtain ⟨a, ha, rfl⟩ := Option.map_eq_some_iff.1 hs
    simp only [hfn i a ha]
    refine ⟨h.sound, h.bound, by simpa using h.length,
      ⟨h.fresh.1.erase i, fun j hj => h.fresh.2 j (List.mem_of_mem_erase hj)⟩,
      fun j b hb hj hrun => ?_⟩
    by_cases hij : j = i
    · subst hij
      have hlt : j < s.results.length := by
        rw [h.length]
        exact (List.getElem?_eq_some_iff.1 hb).1
      rw [ha] at hb
      cases hb
      rw [List.getElem?_set_self hlt]
    · have hrun' : j ∉ s.running := fun hm => hrun ((List.mem_erase_of_ne hij).2 hm)
      rw [List.getElem?_set_ne (Ne.symm hij)]
      exact h.taken j b hb hj hrun'

theorem Inv.run (hfn : ∀ i a, items[i]? = some a → fn i a = .ok (g i a)) {moves : List Move}
    (hs : run limit fn items moves = some s) : Inv g items s := by
  rw [WorkerPool.run] at hs
  have hstart : Inv g items (start items.length : WorkerPool ε β) := inv_start
  revert hs hstart
  generalize (start items.length : WorkerPool ε β) = s₀
  induction moves generalizing s₀ with
  | nil =>
    intro hs hstart
    cases hs
    exact hstart
  | cons m moves ih =>
    intro hs hstart
    obtain ⟨s₁, h₁, hs⟩ := Option.bind_eq_some_iff.1 hs
    exact ih s₁ hs (hstart.step hfn h₁)

/-- **Work that cannot fail gives the results of the items in their order, whatever the moves.** -/
theorem outcome_of_total (hfn : ∀ i a, items[i]? = some a → fn i a = .ok (g i a))
    {moves : List Move} (hs : run limit fn items moves = some s) {r : Except ε (List β)}
    (hr : outcome items s = some r) : r = .ok (items.mapIdx g) := by
  have h := Inv.run hfn hs
  rw [outcome, h.sound] at hr
  simp only at hr
  split_ifs at hr with hdone
  have hresults : s.results = (items.mapIdx g).map some := by
    refine List.ext_getElem? fun i => ?_
    rw [List.getElem?_map, List.getElem?_mapIdx]
    cases ha : items[i]? with
    | none =>
      have hle : s.results.length ≤ i := by
        rw [h.length]
        exact List.getElem?_eq_none_iff.1 ha
      rw [List.getElem?_eq_none_iff.2 hle]
      rfl
    | some a =>
      have hlt : i < s.next := by
        rw [hdone.1]
        exact (List.getElem?_eq_some_iff.1 ha).1
      rw [h.taken i a ha hlt (by rw [hdone.2]; exact List.not_mem_nil)]
      rfl
  have hall : s.results.mapM id = some (items.mapIdx g) := by
    rw [hresults, Loop.mapM_eq_some_iff, List.forall₂_map_left_iff, List.forall₂_same]
    exact fun _ _ => rfl
  rw [hall] at hr
  exact (Option.some.inj hr).symm

end WorkerPool
