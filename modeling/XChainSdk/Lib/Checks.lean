import Mathlib.Data.List.Forall2
import Mathlib.Data.List.Induction

/-!
# Chains of checks

Computations that stop at the first error.

* `Checks.bind_eq_ok`, `Checks.forM_eq_ok`, `Checks.mapM_eq_ok`, `Checks.foldlM_inv` : what a
  success passed through.
* `Checks.Rel` : two computations that stop with related errors or succeed with related values.
-/

namespace Checks

variable {α β γ δ ε : Type}

theorem bind_eq_ok {x : Except ε α} {f : α → Except ε β} {b : β} :
    (x >>= f) = .ok b ↔ ∃ a, x = .ok a ∧ f a = .ok b := by
  cases x with
  | error e =>
    constructor
    · intro h; cases h
    · rintro ⟨_, h, _⟩; cases h
  | ok a =>
    constructor
    · intro h; exact ⟨a, rfl, h⟩
    · rintro ⟨_, h, h'⟩; cases h; exact h'

theorem ite_error_eq_ok {c : Prop} [Decidable c] {e : ε} {x : Except ε α} {a : α} :
    (if c then .error e else x) = .ok a ↔ ¬ c ∧ x = .ok a := by
  by_cases h : c <;> simp [h]

theorem toOption_eq_some {x : Except ε α} {a : α} : x.toOption = some a ↔ x = .ok a := by
  cases x with
  | error e =>
    constructor
    · intro h; cases h
    · intro h; cases h
  | ok b =>
    constructor
    · intro h; cases h; rfl
    · intro h; cases h; rfl

/-- A list of checks succeeds exactly when each of them does. -/
theorem forM_eq_ok {l : List α} {f : α → Except ε Unit} {u : Unit} :
    l.forM f = .ok u ↔ ∀ a ∈ l, f a = .ok () := by
  induction l with
  | nil => exact ⟨fun _ _ h => absurd h List.not_mem_nil, fun _ => rfl⟩
  | cons a l ih =>
    change (f a >>= fun _ => l.forM f) = .ok u ↔ _
    rw [bind_eq_ok, List.forall_mem_cons, ← ih]
    exact ⟨fun ⟨(), h, h'⟩ => ⟨h, h'⟩, fun ⟨h, h'⟩ => ⟨(), h, h'⟩⟩

theorem foldlM_append_singleton {f : β → α → Except ε β} {b : β} {l : List α} {a : α} :
    (l ++ [a]).foldlM f b = l.foldlM f b >>= fun s => f s a := by
  rw [List.foldlM_append]
  cases l.foldlM f b with
  | error e => rfl
  | ok s =>
    change (f s a >>= pure) = f s a
    cases f s a <;> rfl

/-- A step that preserves the invariant gives it for the run. -/
theorem foldlM_inv {f : β → α → Except ε β} (P : List α → β → Prop) {b : β} (h0 : P [] b)
    (hstep : ∀ pre a s s', P pre s → f s a = .ok s' → P (pre ++ [a]) s') {l : List α} {s : β}
    (h : l.foldlM f b = .ok s) : P l s := by
  induction l using List.reverseRecOn generalizing s with
  | nil => cases h; exact h0
  | append_singleton l a ih =>
    rw [foldlM_append_singleton, bind_eq_ok] at h
    obtain ⟨t, ht, hs⟩ := h
    exact hstep l a t s (ih ht) hs

/-- A loop over a list succeeds exactly when it does so on each element. -/
theorem mapM_eq_ok {f : α → Except ε β} {l : List α} {bs : List β} :
    l.mapM f = .ok bs ↔ List.Forall₂ (fun a b => f a = .ok b) l bs := by
  induction l generalizing bs with
  | nil =>
    rw [List.mapM_nil, List.forall₂_nil_left_iff]
    constructor
    · intro h; cases h; rfl
    · intro h; rw [h]; rfl
  | cons a l ih =>
    rw [List.mapM_cons, List.forall₂_cons_left_iff]
    constructor
    · intro h
      obtain ⟨b, hb, h⟩ := bind_eq_ok.1 h
      obtain ⟨bs', hbs, h⟩ := bind_eq_ok.1 h
      cases h
      exact ⟨b, bs', hb, ih.1 hbs, rfl⟩
    · rintro ⟨b, bs', hb, hbs, rfl⟩
      exact bind_eq_ok.2 ⟨b, hb, bind_eq_ok.2 ⟨bs', ih.2 hbs, rfl⟩⟩

theorem mapError_eq_ok {δ : Type*} {x : Except ε α} {g : ε → δ} {a : α} :
    x.mapError g = .ok a ↔ x = .ok a := by
  cases x with
  | error e => simp [Except.mapError]
  | ok b => simp [Except.mapError]

theorem exists_of_mem_mapM {f : α → Except ε β} {l : List α} {bs : List β}
    (h : l.mapM f = .ok bs) {b : β} (hb : b ∈ bs) : ∃ a ∈ l, f a = .ok b := by
  obtain ⟨i, hi, rfl⟩ := List.mem_iff_getElem.1 hb
  have hall := mapM_eq_ok.1 h
  have hi' : i < l.length := hall.length_eq ▸ hi
  exact ⟨l[i], List.getElem_mem hi', hall.get hi' hi⟩

theorem exists_mapM_iff {f : α → Except ε β} {l : List α} :
    (∃ bs, l.mapM f = .ok bs) ↔ ∀ a ∈ l, (f a).isOk = true := by
  induction l with
  | nil => exact ⟨fun _ _ h => absurd h List.not_mem_nil, fun _ => ⟨[], rfl⟩⟩
  | cons a l ih =>
    rw [List.forall_mem_cons, ← ih, List.mapM_cons]
    constructor
    · rintro ⟨bs, h⟩
      obtain ⟨b, hb, h⟩ := bind_eq_ok.1 h
      obtain ⟨bs', hbs, -⟩ := bind_eq_ok.1 h
      exact ⟨by rw [hb]; rfl, bs', hbs⟩
    · rintro ⟨ha, bs, hbs⟩
      cases hfa : f a with
      | error e => rw [hfa] at ha; cases ha
      | ok b =>
        exact ⟨b :: bs, bind_eq_ok.2 ⟨b, rfl, bind_eq_ok.2 ⟨bs, hbs, rfl⟩⟩⟩

theorem mapM_of_forall {f : α → Except ε β} {l : List α} {g : α → β}
    (h : ∀ a ∈ l, f a = .ok (g a)) : l.mapM f = .ok (l.map g) :=
  mapM_eq_ok.2 (List.forall₂_map_right_iff.2 (List.forall₂_same.2 h))

/-- Both computations stop with related errors, or both succeed with related values. -/
inductive Rel (E : ε → ε → Prop) (R : α → β → Prop) : Except ε α → Except ε β → Prop
  | error {e e' : ε} (h : E e e') : Rel E R (.error e) (.error e')
  | ok {a : α} {b : β} (h : R a b) : Rel E R (.ok a) (.ok b)

theorem Rel.bind {E : ε → ε → Prop} {R : α → β → Prop} {S : γ → δ → Prop} {x : Except ε α}
    {y : Except ε β} (hxy : Rel E R x y) {f : α → Except ε γ} {g : β → Except ε δ}
    (hfg : ∀ a b, R a b → Rel E S (f a) (g b)) : Rel E S (x >>= f) (y >>= g) := by
  cases hxy with
  | error h => exact .error h
  | ok h => exact hfg _ _ h

theorem Rel.ite {E : ε → ε → Prop} {R : α → β → Prop} {c c' : Prop} [Decidable c] [Decidable c']
    (hc : c ↔ c') {x y : Except ε α} {x' y' : Except ε β} (h : c → Rel E R x x')
    (h' : ¬ c → Rel E R y y') : Rel E R (if c then x else y) (if c' then x' else y') := by
  by_cases hcase : c
  · rw [if_pos hcase, if_pos (hc.1 hcase)]
    exact h hcase
  · rw [if_neg hcase, if_neg (fun hc' => hcase (hc.2 hc'))]
    exact h' hcase

theorem Rel.forM {E : ε → ε → Prop} {l : List α} {f g : α → Except ε Unit}
    (h : ∀ a, Rel E Eq (f a) (g a)) : Rel E Eq (l.forM f) (l.forM g) := by
  induction l with
  | nil => exact .ok rfl
  | cons a l ih => exact Rel.bind (h a) fun _ _ _ => ih

end Checks
