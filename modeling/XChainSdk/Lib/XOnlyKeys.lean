import Mathlib.Algebra.Group.Basic
import Mathlib.Data.Set.Defs

/-!
# Keys that are known by a coordinate

An x-only key stands for a point of a commutative group up to its sign.  A tweak adds a multiple of
the base to the point of a key, and the sum is known by its coordinate again.

* `XOnlyKeys` : points and their keys.
* `XOnlyKeys.addTweak` : a key under a tweak.
* `XOnlyKeys.Apart` : tweaks that take a key to no two opposite points.
* `XOnlyKeys.addTweak_inj` : such tweaks of one key make different keys.
-/

/-- Points and their x-only keys. -/
structure XOnlyKeys (Point Key : Type) [AddCommGroup Point] where
  base : Point
  /-- the order of the base -/
  order : ℕ
  /-- the key of a point; the point at infinity has none -/
  xOnly : Point → Option Key
  /-- the point that a key stands for -/
  lift : Key → Option Point
  nsmul_inj : ∀ s t, s < order → t < order → s • base = t • base → s = t
  xOnly_inj : ∀ P Q k, xOnly P = some k → xOnly Q = some k → P = Q ∨ P = -Q
  xOnly_lift : ∀ k P, lift k = some P → xOnly P = some k

namespace XOnlyKeys

variable {Point Key : Type} [AddCommGroup Point] (C : XOnlyKeys Point Key)

/-- A key under a tweak; a tweak from the order on makes none. -/
def addTweak (k : Key) (t : ℕ) : Option Key :=
  if t < C.order then (C.lift k).bind fun P => C.xOnly (P + t • C.base) else none

/-- No two of these tweaks take a key to opposite points. -/
def Apart (k : Key) (tweaks : Set ℕ) : Prop :=
  ∀ P, C.lift k = some P → ∀ s ∈ tweaks, ∀ t ∈ tweaks, P + s • C.base ≠ -(P + t • C.base)

variable {C} {k q : Key} {s t : ℕ} {tweaks : Set ℕ}

theorem addTweak_eq_some : C.addTweak k t = some q ↔
    t < C.order ∧ ∃ P, C.lift k = some P ∧ C.xOnly (P + t • C.base) = some q := by
  unfold addTweak
  split_ifs with h
  · simp [h, Option.bind_eq_some_iff]
  · simp [h]

/-- A key with a point is its own key under no tweak. -/
theorem addTweak_zero (horder : 0 < C.order) {P : Point} (h : C.lift k = some P) :
    C.addTweak k 0 = some k := by
  rw [addTweak_eq_some]
  exact ⟨horder, P, h, by rw [zero_nsmul, add_zero, C.xOnly_lift k P h]⟩

/-- **One key, one tweak.** -/
theorem addTweak_inj (h : C.Apart k tweaks) (hs : s ∈ tweaks) (ht : t ∈ tweaks)
    (hks : C.addTweak k s = some q) (hkt : C.addTweak k t = some q) : s = t := by
  obtain ⟨hsorder, P, hP, hqs⟩ := addTweak_eq_some.1 hks
  obtain ⟨htorder, Q, hQ, hqt⟩ := addTweak_eq_some.1 hkt
  obtain rfl : P = Q := Option.some.inj (hP.symm.trans hQ)
  rcases C.xOnly_inj _ _ q hqs hqt with heq | hopp
  · exact C.nsmul_inj s t hsorder htorder (add_left_cancel heq)
  · exact absurd hopp (h P hP s hs t ht)

/-- A tweak that leaves a key as it is adds nothing. -/
theorem eq_zero_of_addTweak_self (h : C.Apart k tweaks) (h0 : 0 ∈ tweaks) (ht : t ∈ tweaks)
    (hkt : C.addTweak k t = some k) : t = 0 := by
  obtain ⟨htorder, P, hP, -⟩ := addTweak_eq_some.1 hkt
  exact addTweak_inj h ht h0 hkt (addTweak_zero (Nat.zero_lt_of_lt htorder) hP)

end XOnlyKeys
