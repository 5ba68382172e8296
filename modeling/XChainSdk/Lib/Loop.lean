import Mathlib.Data.List.Basic
import Mathlib.Data.List.Forall2
import Mathlib.Data.Finset.Basic
import Mathlib.Data.Set.Function
import Mathlib.Algebra.BigOperators.Group.List.Basic
import Mathlib.Tactic.Abel

/-!
# Loops over lists

Rules for a loop that carries a state along a list, stated for invariants that speak of the prefix
read so far.

* `Loop.foldl_inv`, `Loop.foldlM_inv` : a step that preserves the invariant gives it for the run.
* `Loop.foldlM_eq_none` : a loop in `Option` fails at a first element.
* `Loop.setEntry` : insertion-ordered maps, as lists of entries whose keys are distinct.
-/

namespace Loop

variable {α β κ : Type*}

theorem foldl_inv {f : β → α → β} (P : List α → β → Prop) {b : β} (h0 : P [] b)
    (hstep : ∀ pre a s, P pre s → P (pre ++ [a]) (f s a)) (l : List α) : P l (l.foldl f b) := by
  induction l using List.reverseRecOn with
  | nil => exact h0
  | append_singleton l a ih =>
    rw [List.foldl_append]
    exact hstep l a _ ih

theorem forall_mem_snoc {P : α → Prop} {l : List α} {a : α} (h : ∀ x ∈ l, P x) (ha : P a) :
    ∀ x ∈ l ++ [a], P x := fun x hx => by
  rcases List.mem_append.1 hx with hx | hx
  · exact h x hx
  · rw [List.mem_singleton.1 hx]
    exact ha

theorem foldlM_append_singleton {f : β → α → Option β} {b : β} {l : List α} {a : α} :
    (l ++ [a]).foldlM f b = (l.foldlM f b).bind fun s => f s a := by
  rw [List.foldlM_append]
  cases l.foldlM f b <;> simp

theorem foldlM_inv {f : β → α → Option β} (P : List α → β → Prop) {b : β} (h0 : P [] b)
    (hstep : ∀ pre a s s', P pre s → f s a = some s' → P (pre ++ [a]) s') {l : List α} {s : β}
    (h : l.foldlM f b = some s) : P l s := by
  induction l using List.reverseRecOn generalizing s with
  | nil => cases h; exact h0
  | append_singleton l a ih =>
    rw [foldlM_append_singleton] at h
    obtain ⟨t, ht, hs⟩ := Option.bind_eq_some_iff.1 h
    exact hstep l a t s (ih ht) hs

theorem foldlM_eq_none {f : β → α → Option β} {b : β} {l : List α} (h : l.foldlM f b = none) :
    ∃ pre a post s, l = pre ++ a :: post ∧ pre.foldlM f b = some s ∧ f s a = none := by
  induction l using List.reverseRecOn with
  | nil => cases h
  | append_singleton l a ih =>
    rw [foldlM_append_singleton] at h
    cases hl : l.foldlM f b with
    | none =>
      obtain ⟨pre, a', post, s, rfl, hs, ha⟩ := ih hl
      exact ⟨pre, a', post ++ [a], s, by simp, hs, ha⟩
    | some s =>
      rw [hl, Option.bind_some] at h
      exact ⟨l, a, [], s, rfl, hl, h⟩

/-- A loop that succeeds is followed by any loop that simulates its steps. -/
theorem foldlM_sim {γ : Type*} {f : β → α → Option β} {g : γ → α → Option γ} (π : β → γ)
    (hstep : ∀ s a s', f s a = some s' → g (π s) a = some (π s')) {b : β} {l : List α} {s : β}
    (h : l.foldlM f b = some s) : l.foldlM g (π b) = some (π s) :=
  foldlM_inv (fun pre t => pre.foldlM g (π b) = some (π t)) rfl
    (fun pre a t t' ht hf => by rw [foldlM_append_singleton, ht, Option.bind_some, hstep t a t' hf])
    h

/-- A loop that reads every element succeeds exactly when each element is read. -/
theorem mapM_eq_some_iff {f : α → Option β} {l : List α} {bs : List β} :
    l.mapM f = some bs ↔ List.Forall₂ (fun a b => f a = some b) l bs := by
  induction l generalizing bs with
  | nil => simp [eq_comm]
  | cons a l ih =>
    rw [List.mapM_cons, List.forall₂_cons_left_iff]
    constructor
    · intro h
      obtain ⟨b, hb, h⟩ := Option.bind_eq_some_iff.1 h
      obtain ⟨bs', hbs, h⟩ := Option.bind_eq_some_iff.1 h
      exact ⟨b, bs', hb, ih.1 hbs, (Option.some.inj h).symm⟩
    · rintro ⟨b, bs', hb, hbs, rfl⟩
      simp [hb, ih.2 hbs]

theorem exists_of_mem_mapM {f : α → Option β} {l : List α} {bs : List β}
    (h : l.mapM f = some bs) {b : β} (hb : b ∈ bs) : ∃ a ∈ l, f a = some b := by
  obtain ⟨i, hi, rfl⟩ := List.mem_iff_getElem.1 hb
  have hall := mapM_eq_some_iff.1 h
  have hi' : i < l.length := hall.length_eq ▸ hi
  exact ⟨l[i], List.getElem_mem hi', hall.get hi' hi⟩

/-! ### Insertion-ordered maps -/

variable [DecidableEq κ]

/-- Sets the value at a key; a new key goes to the end. -/
def setEntry (m : List (κ × β)) (k : κ) (v : β) : List (κ × β) :=
  match m with
  | [] => [(k, v)]
  | (k', v') :: m => if k = k' then (k, v) :: m else (k', v') :: setEntry m k v

theorem lookup_cons [BEq κ] [LawfulBEq κ] (k j : κ) (v : β) (m : List (κ × β)) :
    ((j, v) :: m).lookup k = if k = j then some v else m.lookup k := by
  by_cases h : k = j
  · simp [h]
  · have hb : (k == j) = false := beq_false_of_ne h
    simp [List.lookup_cons, h, hb]

theorem lookup_map_snd {γ : Type*} (f : β → γ) (m : List (κ × β)) (k : κ) :
    (m.map fun e => (e.1, f e.2)).lookup k = (m.lookup k).map f := by
  induction m with
  | nil => rfl
  | cons e m ih =>
    obtain ⟨j, v⟩ := e
    rw [List.map_cons, lookup_cons, lookup_cons, ih]
    split_ifs <;> rfl

/-- Keys that a function tells apart are found under their values. -/
theorem lookup_map_fst {κ' : Type*} [BEq κ] [LawfulBEq κ] [DecidableEq κ'] [BEq κ'] [LawfulBEq κ']
    {f : κ → κ'} {S : Set κ} (hf : Set.InjOn f S) {m : List (κ × β)} (hm : ∀ e ∈ m, e.1 ∈ S) {k : κ} (hk : k ∈ S) :
    (m.map fun e => (f e.1, e.2)).lookup (f k) = m.lookup k := by
  induction m with
  | nil => rfl
  | cons e m ih =>
    obtain ⟨j, v⟩ := e
    have hj : f k = f j ↔ k = j := hf.eq_iff hk (hm (j, v) List.mem_cons_self)
    rw [List.map_cons, lookup_cons, lookup_cons, ih fun e he => hm e (List.mem_cons_of_mem _ he)]
    simp only [hj]

theorem mem_of_lookup {m : List (κ × β)} {k : κ} {v : β} (h : m.lookup k = some v) :
    (k, v) ∈ m := by
  obtain ⟨l, r, he, -⟩ := List.lookup_eq_some_iff.1 h
  rw [he]
  simp

theorem lookup_setEntry [BEq κ] [LawfulBEq κ] (m : List (κ × β)) (k k' : κ) (v : β) :
    (setEntry m k v).lookup k' = if k' = k then some v else m.lookup k' := by
  induction m with
  | nil => simp [setEntry, lookup_cons]
  | cons e m ih =>
    obtain ⟨j, w⟩ := e
    by_cases hj : k = j
    · subst hj
      by_cases h : k' = k <;> simp [setEntry, lookup_cons, h]
    · by_cases h : k' = j
      · subst h
        have hne : k' ≠ k := fun e => hj e.symm
        simp [setEntry, hj, hne]
      · simp [setEntry, lookup_cons, hj, h, ih]

/-- What an assignment changes of a sum over the entries with some keys. -/
theorem sum_setEntry {γ : Type*} [AddCommGroup γ] (p : κ → Bool) (f : β → γ) (m : List (κ × β))
    (k : κ) (v : β) :
    (((setEntry m k v).filter fun e => p e.1).map fun e => f e.2).sum =
      ((m.filter fun e => p e.1).map fun e => f e.2).sum +
        if p k then f v - ((m.lookup k).map f).getD 0 else 0 := by
  induction m with
  | nil => by_cases hp : p k = true <;> simp [setEntry, hp]
  | cons e m ih =>
    obtain ⟨j, w⟩ := e
    by_cases hj : k = j
    · subst hj
      by_cases hp : p k = true
      · simp only [setEntry, if_true, List.filter_cons, hp, List.map_cons, List.sum_cons,
          lookup_cons, Option.map_some, Option.getD_some]
        abel
      · simp [setEntry, hp]
    · have hset : setEntry ((j, w) :: m) k v = (j, w) :: setEntry m k v := by simp [setEntry, hj]
      rw [hset, lookup_cons, if_neg hj]
      by_cases hp : p j = true
      · simp only [List.filter_cons, hp, if_true, List.map_cons, List.sum_cons, ih, add_assoc]
      · simp only [List.filter_cons, hp, Bool.false_eq_true, if_false, ih]

theorem keys_setEntry_of_mem {m : List (κ × β)} {k : κ} (h : k ∈ m.map Prod.fst) (v : β) :
    (setEntry m k v).map Prod.fst = m.map Prod.fst := by
  induction m with
  | nil => cases h
  | cons e m ih =>
    obtain ⟨j, w⟩ := e
    by_cases hk : k = j
    · simp [setEntry, hk]
    · have hm : k ∈ m.map Prod.fst := by simpa [hk] using h
      simpa [setEntry, hk] using ih hm

theorem setEntry_eq_self {m : List (κ × β)} {k : κ} {v : β} (h : m.lookup k = some v) :
    setEntry m k v = m := by
  induction m with
  | nil => cases h
  | cons e m ih =>
    obtain ⟨j, w⟩ := e
    rw [lookup_cons] at h
    by_cases hk : k = j
    · rw [if_pos hk] at h
      simp [setEntry, hk, Option.some.inj h]
    · rw [if_neg hk] at h
      simp [setEntry, hk, ih h]

theorem setEntry_eq_append {m : List (κ × β)} {k : κ} (h : m.lookup k = none) (v : β) :
    setEntry m k v = m ++ [(k, v)] := by
  induction m with
  | nil => rfl
  | cons e m ih =>
    obtain ⟨j, w⟩ := e
    rw [lookup_cons] at h
    by_cases hk : k = j
    · rw [if_pos hk] at h
      cases h
    · rw [if_neg hk] at h
      simp [setEntry, hk, ih h]

theorem exists_setEntry {m : List (κ × β)} {k : κ} {v : β} (h : m.lookup k = some v) (w : β) :
    ∃ l r, m = l ++ (k, v) :: r ∧ setEntry m k w = l ++ (k, w) :: r := by
  induction m with
  | nil => cases h
  | cons e m ih =>
    obtain ⟨j, u⟩ := e
    rw [lookup_cons] at h
    by_cases hk : k = j
    · subst hk
      rw [if_pos rfl] at h
      cases h
      exact ⟨[], m, rfl, by simp [setEntry]⟩
    · rw [if_neg hk] at h
      obtain ⟨l, r, hm, hset⟩ := ih h
      exact ⟨(j, u) :: l, r, by rw [hm]; rfl, by simp [setEntry, hk, hset]⟩

theorem mem_keys_setEntry {m : List (κ × β)} {k j : κ} {v : β}
    (h : j ∈ (setEntry m k v).map Prod.fst) : j = k ∨ j ∈ m.map Prod.fst := by
  induction m with
  | nil => simpa [setEntry] using h
  | cons e m ih =>
    obtain ⟨i, w⟩ := e
    by_cases hk : k = i
    · subst hk; simpa [setEntry] using h
    · simp only [setEntry, if_neg hk, List.map_cons, List.mem_cons] at h ⊢
      rcases h with rfl | h
      · exact .inr (.inl rfl)
      · exact (ih h).imp_right .inr

theorem nodup_setEntry {m : List (κ × β)} (h : (m.map Prod.fst).Nodup) (k : κ) (v : β) :
    ((setEntry m k v).map Prod.fst).Nodup := by
  induction m with
  | nil => simp [setEntry]
  | cons e m ih =>
    obtain ⟨i, w⟩ := e
    rw [List.map_cons, List.nodup_cons] at h
    by_cases hk : k = i
    · subst hk; simpa [setEntry] using h
    · simp only [setEntry, if_neg hk, List.map_cons, List.nodup_cons]
      exact ⟨fun hi => (mem_keys_setEntry hi).elim (fun he => hk he.symm) h.1, ih h.2⟩

theorem lookup_of_mem {m : List (κ × β)} (hm : (m.map Prod.fst).Nodup) {e : κ × β} (h : e ∈ m) :
    m.lookup e.1 = some e.2 := by
  induction m with
  | nil => cases h
  | cons x m ih =>
    obtain ⟨j, w⟩ := x
    rw [List.map_cons, List.nodup_cons] at hm
    rcases List.mem_cons.1 h with rfl | h
    · rw [lookup_cons, if_pos rfl]
    · have hne : e.1 ≠ j := fun he => hm.1 (List.mem_map.2 ⟨e, h, he⟩)
      rw [lookup_cons, if_neg hne, ih hm.2 h]

end Loop
