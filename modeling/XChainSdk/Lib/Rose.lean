import Mathlib.Data.List.Basic

/-!
# Labelled trees

A label at each node and a key on each branch.

* `Rose.rewrite` : a bottom-up pass, which rewrites a node once its branches are rewritten.
* `Rose.rewriteFrom` : such a pass that also hands something down from a node to its branches.
* `Rose.All` : a property of every subtree.
* `Rose.all_rewrite` : what a pass establishes at each node holds everywhere in its result.
* `Rose.rewrite_absorbs` : **a pass is undone by another that undoes each of its steps**.
-/

/-- A tree with labelled nodes and branches. -/
inductive Rose (α κ : Type) where
  | node (label : α) (kids : List (κ × Rose α κ))

namespace Rose

variable {α κ : Type}

def label : Rose α κ → α
  | .node l _ => l

def kids : Rose α κ → List (κ × Rose α κ)
  | .node _ ks => ks

@[simp] theorem label_node (l : α) (ks : List (κ × Rose α κ)) : (node l ks).label = l := rfl

@[simp] theorem kids_node (l : α) (ks : List (κ × Rose α κ)) : (node l ks).kids = ks := rfl

@[simp] theorem node_label_kids (t : Rose α κ) : node t.label t.kids = t := by
  cases t
  rfl

@[elab_as_elim]
theorem ind {motive : Rose α κ → Prop}
    (step : ∀ l ks, (∀ k ∈ ks, motive k.2) → motive (node l ks)) : ∀ t, motive t
  | .node l ks => step l ks fun k hk => by
      have : sizeOf k.2 < sizeOf ks := by
        have hlt := List.sizeOf_lt_of_mem hk
        obtain ⟨key, t⟩ := k
        rw [Prod.mk.sizeOf_spec] at hlt
        change sizeOf t < sizeOf ks
        omega
      exact ind step k.2
termination_by t => sizeOf t

/-- A function on the trees of a list of branches. -/
def mapKids (f : Rose α κ → Rose α κ) (ks : List (κ × Rose α κ)) : List (κ × Rose α κ) :=
  ks.map fun k => (k.1, f k.2)

section mapKids

variable {f g : Rose α κ → Rose α κ} {ks ks' : List (κ × Rose α κ)}

@[simp] theorem mapKids_nil : mapKids f [] = [] := rfl

@[simp] theorem mapKids_cons (k : κ × Rose α κ) :
    mapKids f (k :: ks) = (k.1, f k.2) :: mapKids f ks := rfl

@[simp] theorem mapKids_append : mapKids f (ks ++ ks') = mapKids f ks ++ mapKids f ks' :=
  List.map_append

theorem mem_mapKids {k : κ × Rose α κ} : k ∈ mapKids f ks ↔ ∃ j ∈ ks, (j.1, f j.2) = k :=
  List.mem_map

theorem mapKids_mapKids : mapKids g (mapKids f ks) = mapKids (fun t => g (f t)) ks := by
  simp [mapKids]

theorem mapKids_congr (h : ∀ k ∈ ks, f k.2 = g k.2) : mapKids f ks = mapKids g ks :=
  List.map_congr_left fun k hk => by rw [h k hk]

end mapKids

/-! ### Passes -/

section rewrite

variable (f : Rose α κ → Rose α κ)

mutual

/-- The branches of a node first, then the node. -/
def rewrite : Rose α κ → Rose α κ
  | .node l ks => f (node l (rewriteKids ks))

def rewriteKids : List (κ × Rose α κ) → List (κ × Rose α κ)
  | [] => []
  | k :: ks => rewriteKid k :: rewriteKids ks

def rewriteKid : κ × Rose α κ → κ × Rose α κ
  | (key, t) => (key, rewrite t)

end

theorem rewriteKids_eq (ks : List (κ × Rose α κ)) :
    rewriteKids f ks = mapKids (rewrite f) ks := by
  induction ks with
  | nil => rw [rewriteKids, mapKids_nil]
  | cons k ks ih =>
    obtain ⟨key, t⟩ := k
    rw [rewriteKids, rewriteKid, ih, mapKids_cons]

theorem rewrite_node (l : α) (ks : List (κ × Rose α κ)) :
    rewrite f (node l ks) = f (node l (mapKids (rewrite f) ks)) := by
  rw [rewrite, rewriteKids_eq]

end rewrite

section rewriteFrom

variable {σ : Type} (down : σ → α → σ) (f : σ → Rose α κ → Rose α κ)

mutual

/-- The branches of a node first, with what it hands down to them, then the node. -/
def rewriteFrom : σ → Rose α κ → Rose α κ
  | s, .node l ks => f s (node l (rewriteKidsFrom (down s l) ks))

def rewriteKidsFrom : σ → List (κ × Rose α κ) → List (κ × Rose α κ)
  | _, [] => []
  | s, k :: ks => rewriteKidFrom s k :: rewriteKidsFrom s ks

def rewriteKidFrom : σ → κ × Rose α κ → κ × Rose α κ
  | s, (key, t) => (key, rewriteFrom s t)

end

theorem rewriteKidsFrom_eq (s : σ) (ks : List (κ × Rose α κ)) :
    rewriteKidsFrom down f s ks = mapKids (rewriteFrom down f s) ks := by
  induction ks with
  | nil => rw [rewriteKidsFrom, mapKids_nil]
  | cons k ks ih =>
    obtain ⟨key, t⟩ := k
    rw [rewriteKidsFrom, rewriteKidFrom, ih, mapKids_cons]

theorem rewriteFrom_node (s : σ) (l : α) (ks : List (κ × Rose α κ)) :
    rewriteFrom down f s (node l ks) =
      f s (node l (mapKids (rewriteFrom down f (down s l)) ks)) := by
  rw [rewriteFrom, rewriteKidsFrom_eq]

end rewriteFrom

/-! ### Subtrees -/

/-- A tree occurs in a tree. -/
inductive Occurs (s : Rose α κ) : Rose α κ → Prop
  | self : Occurs s s
  | kid {l : α} {ks : List (κ × Rose α κ)} {k : κ × Rose α κ} : k ∈ ks → Occurs s k.2 →
      Occurs s (node l ks)

theorem Occurs.trans {s t u : Rose α κ} (h : Occurs s t) (h' : Occurs t u) : Occurs s u := by
  induction h' with
  | self => exact h
  | kid hk _ ih => exact .kid hk ih

/-- A property of every subtree. -/
def All (P : Rose α κ → Prop) (t : Rose α κ) : Prop := ∀ s, Occurs s t → P s

variable {P Q : Rose α κ → Prop} {f g : Rose α κ → Rose α κ} {l : α}
  {ks : List (κ × Rose α κ)} {t : Rose α κ}

theorem All.self (h : All P t) : P t := h t .self

theorem All.kid (h : All P (node l ks)) {k : κ × Rose α κ} (hk : k ∈ ks) : All P k.2 :=
  fun s hs => h s (.kid hk hs)

theorem All.of_mem_kids (h : All P t) {k : κ × Rose α κ} (hk : k ∈ t.kids) : All P k.2 := by
  cases t
  exact h.kid hk

theorem all_node : All P (node l ks) ↔ P (node l ks) ∧ ∀ k ∈ ks, All P k.2 := by
  constructor
  · exact fun h => ⟨h.self, fun k hk => h.kid hk⟩
  · rintro ⟨hself, hkids⟩ s hs
    cases hs with
    | self => exact hself
    | kid hk hs => exact hkids _ hk s hs

theorem All.mono (h : All P t) (hPQ : ∀ s, P s → Q s) : All Q t := fun s hs => hPQ s (h s hs)

theorem All.and (h : All P t) (h' : All Q t) : All (fun s => P s ∧ Q s) t :=
  fun s hs => ⟨h s hs, h' s hs⟩

theorem all_mapKids (h : ∀ k ∈ ks, All P (f k.2)) : ∀ k ∈ mapKids f ks, All P k.2 := by
  intro k hk
  obtain ⟨j, hj, rfl⟩ := mem_mapKids.1 hk
  exact h j hj

section check

variable (p : Rose α κ → Bool)

mutual

/-- Whether every subtree passes a check. -/
def check : Rose α κ → Bool
  | .node l ks => p (node l ks) && checkKids ks

def checkKids : List (κ × Rose α κ) → Bool
  | [] => true
  | k :: ks => checkKid k && checkKids ks

def checkKid : κ × Rose α κ → Bool
  | (_, t) => check t

end

theorem checkKids_eq (ks : List (κ × Rose α κ)) :
    checkKids p ks = ks.all fun k => check p k.2 := by
  induction ks with
  | nil => rw [checkKids, List.all_nil]
  | cons k ks ih =>
    obtain ⟨key, t⟩ := k
    rw [checkKids, checkKid, ih, List.all_cons]

theorem all_of_check {p : Rose α κ → Bool} {t : Rose α κ} (h : check p t = true) :
    All (fun s => p s = true) t := by
  induction t using ind with
  | step l ks ih =>
    rw [check, checkKids_eq, Bool.and_eq_true, List.all_eq_true] at h
    exact all_node.2 ⟨h.1, fun k hk => ih k hk (h.2 k hk)⟩

end check

/-- What each step of a pass establishes holds everywhere in the result. -/
theorem all_rewrite (t : Rose α κ)
    (h : ∀ l ks, Occurs (node l ks) t → (∀ k ∈ ks, All P (rewrite f k.2)) →
      All P (f (node l (mapKids (rewrite f) ks)))) : All P (rewrite f t) := by
  induction t using ind with
  | step l ks ih =>
    rw [rewrite_node]
    exact h l ks .self fun k hk => ih k hk fun l' ks' ho => h l' ks' (.kid hk ho)

theorem all_rewriteFrom {σ : Type} {down : σ → α → σ} {f : σ → Rose α κ → Rose α κ} (t : Rose α κ)
    (h : ∀ s l ks, Occurs (node l ks) t → (∀ k ∈ ks, All P (rewriteFrom down f (down s l) k.2)) →
      All P (f s (node l (mapKids (rewriteFrom down f (down s l)) ks)))) (s : σ) :
    All P (rewriteFrom down f s t) := by
  induction t using ind generalizing s with
  | step l ks ih =>
    rw [rewriteFrom_node]
    exact h s l ks .self fun k hk => ih k hk (fun s' l' ks' ho => h s' l' ks' (.kid hk ho)) _

/-- Two passes that agree at every node they meet give one result. -/
theorem rewrite_congr (t : Rose α κ)
    (h : ∀ l ks, Occurs (node l ks) t →
      f (node l (mapKids (rewrite g) ks)) = g (node l (mapKids (rewrite g) ks))) :
    rewrite f t = rewrite g t := by
  induction t using ind with
  | step l ks ih =>
    have hkids : mapKids (rewrite f) ks = mapKids (rewrite g) ks :=
      mapKids_congr fun k hk => ih k hk fun l' ks' ho => h l' ks' (.kid hk ho)
    rw [rewrite_node, rewrite_node, hkids]
    exact h l ks .self

/-- **A pass is absorbed by one that undoes each of its steps.** -/
theorem rewrite_absorbs (t : Rose α κ)
    (h : ∀ l ks, Occurs (node l ks) t →
      (∀ k ∈ ks, All (fun s => rewrite g (rewrite f s) = rewrite g s) k.2) →
      rewrite g (f (node l (mapKids (rewrite f) ks))) =
        rewrite g (node l (mapKids (rewrite f) ks))) :
    All (fun s => rewrite g (rewrite f s) = rewrite g s) t := by
  induction t using ind with
  | step l ks ih =>
    have hall : ∀ k ∈ ks, All (fun s => rewrite g (rewrite f s) = rewrite g s) k.2 :=
      fun k hk => ih k hk fun l' ks' ho => h l' ks' (.kid hk ho)
    refine all_node.2 ⟨?_, hall⟩
    have hkids : mapKids (rewrite g) (mapKids (rewrite f) ks) = mapKids (rewrite g) ks := by
      rw [mapKids_mapKids]
      exact mapKids_congr fun k hk => (hall k hk).self
    rw [rewrite_node f, h l ks .self hall, rewrite_node g, hkids, rewrite_node g]

theorem rewriteFrom_absorbs {σ : Type} {down : σ → α → σ} {f : σ → Rose α κ → Rose α κ}
    (h : ∀ s l ks, rewrite g (f s (node l ks)) = rewrite g (node l ks)) (s : σ) (t : Rose α κ) :
    rewrite g (rewriteFrom down f s t) = rewrite g t := by
  induction t using ind generalizing s with
  | step l ks ih =>
    have hkids : mapKids (rewrite g) (mapKids (rewriteFrom down f (down s l)) ks) =
        mapKids (rewrite g) ks := by
      rw [mapKids_mapKids]
      exact mapKids_congr fun k hk => ih k hk _
    rw [rewriteFrom_node, h, rewrite_node g, hkids, ← rewrite_node g]

end Rose
