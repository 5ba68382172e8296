import XChainSdk.Lib.Loop

/-!
# Dictionaries

Insertion-ordered maps whose keys are distinct, as plain objects and `Map`s are.

* `Dict` : the entries, with the proof that no key is listed twice.
* `Dict.get?`, `Dict.set`, `Dict.erase` : lookup, assignment and deletion.
-/

/-- An insertion-ordered map. -/
structure Dict (κ β : Type*) where
  entries : List (κ × β)
  nodup : (entries.map Prod.fst).Nodup

namespace Dict

variable {κ β : Type*}

/-- The map without entries. -/
def empty : Dict κ β := ⟨[], List.nodup_nil⟩

/-- The keys in the order of the listing. -/
def keys (m : Dict κ β) : List κ := m.entries.map Prod.fst

@[simp] theorem keys_empty : (empty : Dict κ β).keys = [] := rfl

variable [DecidableEq κ]

/-- The value at a key. -/
def get? (m : Dict κ β) (k : κ) : Option β := m.entries.lookup k

/-- Sets the value at a key; a new key goes to the end. -/
def set (m : Dict κ β) (k : κ) (v : β) : Dict κ β :=
  ⟨Loop.setEntry m.entries k v, Loop.nodup_setEntry m.nodup k v⟩

/-- Deletes a key. -/
def erase (m : Dict κ β) (k : κ) : Dict κ β where
  entries := m.entries.filter fun e => e.1 ≠ k
  nodup := m.nodup.sublist (List.filter_sublist.map Prod.fst)

@[simp] theorem get?_empty (k : κ) : (empty : Dict κ β).get? k = none := rfl

theorem get?_set (m : Dict κ β) (k j : κ) (v : β) :
    (m.set k v).get? j = if j = k then some v else m.get? j := Loop.lookup_setEntry m.entries k j v

theorem get?_of_mem {m : Dict κ β} {e : κ × β} (h : e ∈ m.entries) : m.get? e.1 = some e.2 :=
  Loop.lookup_of_mem m.nodup h

theorem mem_entries_of_get? {m : Dict κ β} {k : κ} {v : β} (h : m.get? k = some v) :
    (k, v) ∈ m.entries := Loop.mem_of_lookup h

theorem mem_keys {m : Dict κ β} {k : κ} : k ∈ m.keys ↔ ∃ v, m.get? k = some v := by
  constructor
  · intro h
    obtain ⟨⟨j, v⟩, he, rfl⟩ := List.mem_map.1 h
    exact ⟨v, get?_of_mem he⟩
  · rintro ⟨v, h⟩
    exact List.mem_map.2 ⟨_, mem_entries_of_get? h, rfl⟩

/-- Assigning to a key that is there keeps the listing. -/
theorem keys_set {m : Dict κ β} {k : κ} (h : k ∈ m.keys) (v : β) : (m.set k v).keys = m.keys :=
  Loop.keys_setEntry_of_mem h v

/-- Assigning the value that is there changes nothing. -/
theorem set_eq_self {m : Dict κ β} {k : κ} {v : β} (h : m.get? k = some v) : m.set k v = m := by
  obtain ⟨entries, nodup⟩ := m
  simp only [set, mk.injEq]
  exact Loop.setEntry_eq_self h

/-- Assigning to a new key lists it last. -/
theorem entries_set_of_get? {m : Dict κ β} {k : κ} (h : m.get? k = none) (v : β) :
    (m.set k v).entries = m.entries ++ [(k, v)] := Loop.setEntry_eq_append h v

/-- Assigning to a key that is there replaces its value in place. -/
theorem exists_entries_set {m : Dict κ β} {k : κ} {v : β} (h : m.get? k = some v) (w : β) :
    ∃ l r, m.entries = l ++ (k, v) :: r ∧ (m.set k w).entries = l ++ (k, w) :: r :=
  Loop.exists_setEntry h w

/-- Deleting the first key leaves the rest. -/
theorem entries_erase_head {m : Dict κ β} {k : κ} {v : β} {rest : List (κ × β)}
    (h : m.entries = (k, v) :: rest) : (m.erase k).entries = rest := by
  have hnodup := m.nodup
  rw [h, List.map_cons, List.nodup_cons] at hnodup
  have hne : ∀ e ∈ rest, e.1 ≠ k := fun e he hk =>
    hnodup.1 (List.mem_map.2 ⟨e, he, hk⟩)
  have hrest : rest.filter (fun e => decide (e.1 ≠ k)) = rest :=
    List.filter_eq_self.2 fun e he => decide_eq_true (hne e he)
  simp only [erase, h, List.filter_cons, ne_eq, not_true_eq_false, decide_false,
    Bool.false_eq_true, if_false]
  exact hrest

end Dict
