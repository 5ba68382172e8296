import Mathlib.Algebra.Order.Ring.Rat
import Mathlib.Algebra.Order.BigOperators.Group.List
import Mathlib.Data.List.MinMax
import Mathlib.Tactic.Linarith

/-!
# Sliding windows

Events with times in a list, in the order they happened, and the closed intervals of one length.

* `SlidingWindow.within`, `SlidingWindow.recent` : the events of an interval, and those that are not
  older than a length.
* `SlidingWindow.within_sublist_recent` : an interval that holds the present holds recent events
  only.
* `SlidingWindow.Repeats.exists_covering` : events that are repeated later, while they are recent, fit the
  interval of some event.
-/

namespace SlidingWindow

variable {α : Type*} (time : α → ℚ) (W : ℚ)

/-- The time is in the interval that starts at `x`. -/
def inWindow (x t : ℚ) : Bool := decide (x ≤ t ∧ t ≤ x + W)

/-- The events of the interval that starts at `x`. -/
def within (x : ℚ) (l : List α) : List α := l.filter fun a => inWindow W x (time a)

/-- The events that are not older than the window. -/
def recent (now : ℚ) (l : List α) : List α := l.filter fun a => decide (now - W ≤ time a)

variable {time W} {x now : ℚ} {l : List α} {a : α}

theorem inWindow_iff {t : ℚ} : inWindow W x t = true ↔ x ≤ t ∧ t ≤ x + W := decide_eq_true_iff

theorem within_snoc_of_mem (h : inWindow W x (time a) = true) :
    within time W x (l ++ [a]) = within time W x l ++ [a] := by
  simp [within, h]

theorem within_snoc_of_notMem (h : ¬ inWindow W x (time a) = true) :
    within time W x (l ++ [a]) = within time W x l := by
  simp [within, h]

theorem recent_cons_of_le (h : now - W ≤ time a) :
    recent time W now (a :: l) = a :: recent time W now l := by
  simp [recent, tsub_le_iff_right.1 h]

theorem recent_cons_of_not_le (h : ¬ now - W ≤ time a) :
    recent time W now (a :: l) = recent time W now l := by
  rw [tsub_le_iff_right] at h
  simp [recent, h]

theorem filter_sublist_filter {p q : α → Bool} (h : ∀ a ∈ l, p a = true → q a = true) :
    (l.filter p).Sublist (l.filter q) := by
  have hpq : l.filter p = (l.filter q).filter p := by
    rw [List.filter_filter]
    refine List.filter_congr fun a ha => ?_
    cases hp : p a with
    | false => simp
    | true => simp [h a ha hp]
  rw [hpq]
  exact List.filter_sublist

/-- An interval that holds the present holds recent events only. -/
theorem within_sublist_recent (h : inWindow W x now = true) (l : List α) :
    (within time W x l).Sublist (recent time W now l) := by
  refine filter_sublist_filter fun a _ ha => ?_
  have h1 := inWindow_iff.1 h
  have h2 := inWindow_iff.1 ha
  rw [decide_eq_true_iff]
  linarith [h1.2, h2.1]

/-- One more event keeps the bound of every interval when the recent events leave room for it. -/
theorem length_within_snoc {q : ℚ} (hl : ∀ x, ((within time W x l).length : ℚ) ≤ q)
    (ha : ((recent time W (time a) l).length : ℚ) + 1 ≤ q) (x : ℚ) :
    ((within time W x (l ++ [a])).length : ℚ) ≤ q := by
  by_cases h : inWindow W x (time a) = true
  · rw [within_snoc_of_mem h, List.length_append, List.length_singleton]
    have hle : (within time W x l).length ≤ (recent time W (time a) l).length :=
      (within_sublist_recent h l).length_le
    have hcast : ((within time W x l).length : ℚ) ≤ (recent time W (time a) l).length := by
      exact_mod_cast hle
    push_cast
    linarith
  · rw [within_snoc_of_notMem h]
    exact hl x

/-! ### Events that are repeated -/

/-- An event of the interval: at its own time or at one of its later ones. -/
def active (time : α → ℚ) (later : α → List ℚ) (W x : ℚ) (a : α) : Bool :=
  inWindow W x (time a) || (later a).any (inWindow W x)

/-- Events are repeated while they are recent, and what was repeated shortly before an event is
recent at that event. -/
structure Repeats (time : α → ℚ) (later : α → List ℚ) (W : ℚ) (l : List α) : Prop where
  recent : ∀ a ∈ l, ∀ t ∈ later a, time a ≤ t ∧ t - W ≤ time a
  overlap : ∀ a ∈ l, ∀ b ∈ l, ∀ t ∈ later b, t ≤ time a → time a - W ≤ t → time a - W ≤ time b

variable {later : α → List ℚ}

/-- A new event, when what was repeated shortly before it is recent. -/
theorem Repeats.snoc (h : Repeats time later W l) (hnew : later a = [])
    (hclose : ∀ b ∈ l, ∀ t ∈ later b, time a - W ≤ t → time a - W ≤ time b) :
    Repeats time later W (l ++ [a]) := by
  refine ⟨fun b hb t ht => ?_, fun c hc b hb t ht hle hge => ?_⟩
  · rcases List.mem_append.1 hb with hb | hb
    · exact h.recent b hb t ht
    · rw [List.mem_singleton.1 hb, hnew] at ht
      cases ht
  · rcases List.mem_append.1 hb with hb | hb
    · rcases List.mem_append.1 hc with hc | hc
      · exact h.overlap c hc b hb t ht hle hge
      · rw [List.mem_singleton.1 hc] at hge ⊢
        exact hclose b hb t ht hge
    · rw [List.mem_singleton.1 hb, hnew] at ht
      cases ht

/-- Repeating a recent event now. -/
theorem Repeats.repeat_now {pre post : List α} {a' : α}
    (h : Repeats time later W (pre ++ a :: post)) (htime : time a' = time a)
    (hlater : later a' = later a ++ [now]) (hle : ∀ b ∈ pre ++ a :: post, time b ≤ now)
    (hrecent : now - W ≤ time a) : Repeats time later W (pre ++ a' :: post) := by
  -- an event of the new list is one of the old list, repeated now or not
  have hmem : ∀ b' ∈ pre ++ a' :: post, ∃ b ∈ pre ++ a :: post, time b' = time b ∧
      ∀ t ∈ later b', t ∈ later b ∨ t = now ∧ b = a := by
    intro b' hb'
    rcases List.mem_append.1 hb' with hb' | hb'
    · exact ⟨b', by simp [hb'], rfl, fun t ht => .inl ht⟩
    rcases List.mem_cons.1 hb' with rfl | hb'
    · refine ⟨a, by simp, htime, fun t ht => ?_⟩
      rw [hlater, List.mem_append, List.mem_singleton] at ht
      exact ht.imp_right fun h => ⟨h, rfl⟩
    · exact ⟨b', by simp [hb'], rfl, fun t ht => .inl ht⟩
  refine ⟨fun b' hb' t ht => ?_, fun c' hc' b' hb' t ht hct hcw => ?_⟩
  · obtain ⟨b, hb, hbt, hlat⟩ := hmem b' hb'
    rw [hbt]
    rcases hlat t ht with ht | ⟨rfl, rfl⟩
    · exact h.recent b hb t ht
    · exact ⟨hle b hb, hrecent⟩
  · obtain ⟨b, hb, hbt, hlat⟩ := hmem b' hb'
    obtain ⟨c, hc, hctime, -⟩ := hmem c' hc'
    rw [hctime] at hct hcw ⊢
    rw [hbt]
    rcases hlat t ht with ht | ⟨rfl, rfl⟩
    · exact h.overlap c hc b hb t ht hct hcw
    · -- nothing happened after now
      have := hle c hc
      linarith

/-- The last event of an interval, at its own time, has all others among its recent ones. -/
theorem Repeats.exists_covering (h : Repeats time later W l) (x : ℚ) :
    ∃ y, ∀ a ∈ l, active time later W x a = true → inWindow W y (time a) = true := by
  cases hmax : (l.filter (active time later W x)).argmax time with
  | none =>
    have hnil := List.argmax_eq_none.1 hmax
    refine ⟨x, fun a ha hact => ?_⟩
    exact absurd (List.mem_filter.2 ⟨ha, hact⟩) (by simp [hnil])
  | some m =>
    obtain ⟨hm, hmact⟩ := List.mem_filter.1 (List.argmax_mem hmax)
    have hlast : time m ≤ x + W := by
      rcases Bool.or_eq_true_iff.1 hmact with hin | hany
      · exact (inWindow_iff.1 hin).2
      · obtain ⟨t, ht, hin⟩ := List.any_eq_true.1 hany
        exact (h.recent m hm t ht).1.trans (inWindow_iff.1 hin).2
    refine ⟨time m - W, fun a ha hact => inWindow_iff.2 ⟨?_, ?_⟩⟩
    · rcases Bool.or_eq_true_iff.1 hact with hin | hany
      · have := (inWindow_iff.1 hin).1
        linarith
      · obtain ⟨t, ht, hin⟩ := List.any_eq_true.1 hany
        have hx := (inWindow_iff.1 hin).1
        by_cases hle : t ≤ time m
        · exact h.overlap m hm a ha t ht hle (by linarith)
        · have := (h.recent a ha t ht).2
          linarith
    · have := List.le_of_mem_argmax (List.mem_filter.2 ⟨ha, hact⟩) hmax
      linarith

/-- A bound for the events at their own times bounds the active ones. -/
theorem Repeats.active_sublist (h : Repeats time later W l) (x : ℚ) :
    ∃ y, (l.filter (active time later W x)).Sublist (within time W y l) ∧
      ∀ a ∈ l, active time later W x a = true → inWindow W y (time a) = true := by
  obtain ⟨y, hy⟩ := h.exists_covering x
  exact ⟨y, filter_sublist_filter hy, hy⟩

end SlidingWindow
