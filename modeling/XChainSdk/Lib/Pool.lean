import Mathlib.Data.List.Perm.Subperm

/-!
# Pools of things that are taken once

A pool lists things with a mark on those that are taken, so that equal requests need as many equal
things.

* `Pool.take?` : takes the first untaken thing that is the requested one.
* `Pool.take?_perm` : what a taking removes of the untaken things.
* `Pool.subperm_of_perm` : what was taken is among the things, with its multiplicity.
-/

/-- Things, each with a mark when it is taken. -/
abbrev Pool (α : Type*) := List (α × Bool)

namespace Pool

variable {α : Type*}

/-- Nothing is taken. -/
def ofList (l : List α) : Pool α := l.map fun a => (a, false)

/-- The things that are left. -/
def untaken (pool : Pool α) : List α := (pool.filter fun e => !e.2).map Prod.fst

@[simp] theorem untaken_nil : untaken ([] : Pool α) = [] := rfl

@[simp] theorem untaken_cons_true (a : α) (pool : Pool α) :
    untaken ((a, true) :: pool) = untaken pool := rfl

@[simp] theorem untaken_cons_false (a : α) (pool : Pool α) :
    untaken ((a, false) :: pool) = a :: untaken pool := rfl

@[simp] theorem untaken_ofList (l : List α) : untaken (ofList l) = l := by
  induction l with
  | nil => rfl
  | cons a l ih =>
    change a :: untaken (ofList l) = a :: l
    rw [ih]

theorem subperm_of_perm {l taken : List α} {pool : Pool α}
    (h : l.Perm (taken ++ untaken pool)) : taken.Subperm l :=
  (List.sublist_append_left taken (untaken pool)).subperm.trans h.symm.subperm

variable [DecidableEq α]

/-- Takes the first thing that is left and is the requested one. -/
def take? (a : α) : Pool α → Option (Pool α)
  | [] => none
  | (b, taken) :: pool =>
    if !taken && b = a then some ((b, true) :: pool) else (take? a pool).map ((b, taken) :: ·)

/-- A taking removes one occurrence. -/
theorem take?_perm {a : α} {pool pool' : Pool α} (h : take? a pool = some pool') :
    (untaken pool).Perm (a :: untaken pool') := by
  induction pool generalizing pool' with
  | nil => cases h
  | cons e pool ih =>
    obtain ⟨b, taken⟩ := e
    unfold take? at h
    split_ifs at h with hb
    · simp only [Bool.and_eq_true, Bool.not_eq_true', decide_eq_true_eq] at hb
      obtain ⟨rfl, rfl⟩ := hb
      cases h
      simp
    · obtain ⟨pool'', hp, rfl⟩ := Option.map_eq_some_iff.1 h
      cases taken with
      | true =>
        rw [untaken_cons_true, untaken_cons_true]
        exact ih hp
      | false => exact ((ih hp).cons b).trans (List.Perm.swap a b _)

/-- One more thing is taken. -/
theorem perm_take? {a : α} {l taken : List α} {pool pool' : Pool α}
    (hpool : l.Perm (taken ++ untaken pool)) (h : take? a pool = some pool') :
    l.Perm (taken ++ [a] ++ untaken pool') := by
  rw [List.append_assoc]
  exact hpool.trans ((take?_perm h).append_left taken)

end Pool
