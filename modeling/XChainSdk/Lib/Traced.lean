import Mathlib.Data.List.Basic

/-!
# Computations that leave a trace

A computation ends with a value or an error, and leaves the list of what it did on the way; an error
keeps what was done before it.

* `Traced` : the computations, with their monad.
* `Traced.call`, `Traced.passed` : an action that is seen even when it fails, and one that is seen
  only when it succeeds.
* `Traced.catching`, `Traced.onlyIf` : a handler, and a step that a flag guards.
* `Traced.Each` : every action of the trace has a property.
* `Traced.Always` : every action of the trace is allowed by what was done before it.
-/

/-- A computation with its outcome and its trace. -/
structure Traced (ε τ α : Type) where
  outcome : Except ε α
  trace : List τ

namespace Traced

variable {ε τ α β : Type}

/-- The computation that a value continues with; an error ends it. -/
def andThen (x : Traced ε τ α) (f : α → Traced ε τ β) : Traced ε τ β :=
  match x.outcome with
  | .error e => ⟨.error e, x.trace⟩
  | .ok a => ⟨(f a).outcome, x.trace ++ (f a).trace⟩

instance : Monad (Traced ε τ) where
  pure a := ⟨.ok a, []⟩
  bind := andThen

/-- An outcome that does nothing visible. -/
def lift (r : Except ε α) : Traced ε τ α := ⟨r, []⟩

/-- An action that is visible whatever its outcome. -/
def call (t : τ) (r : Except ε α) : Traced ε τ α := ⟨r, [t]⟩

/-- An action that is visible when it succeeds, with its value. -/
def passed (t : α → τ) (r : Except ε α) : Traced ε τ α :=
  match r with
  | .error e => ⟨.error e, []⟩
  | .ok a => ⟨.ok a, [t a]⟩

/-- The error of a computation, changed. -/
def catching (x : Traced ε τ α) (f : ε → ε) : Traced ε τ α := ⟨x.outcome.mapError f, x.trace⟩

/-- A computation that is left out when a flag is down. -/
def onlyIf (c : Bool) (x : Traced ε τ Unit) : Traced ε τ Unit := if c then x else pure ()

variable {x : Traced ε τ α} {f : α → Traced ε τ β} {e : ε} {a : α} {b : β} {t : τ}

theorem bind_of_ok (h : x.outcome = .ok a) :
    x >>= f = ⟨(f a).outcome, x.trace ++ (f a).trace⟩ := by
  change andThen x f = _
  rw [andThen, h]

theorem bind_of_error (h : x.outcome = .error e) : x >>= f = ⟨.error e, x.trace⟩ := by
  change andThen x f = _
  rw [andThen, h]

theorem bind_eq_ok : (x >>= f).outcome = .ok b ↔
    ∃ a, x.outcome = .ok a ∧ (f a).outcome = .ok b := by
  cases h : x.outcome with
  | error e => simp [bind_of_error h]
  | ok a => simp [bind_of_ok h]

theorem bind_eq_error : (x >>= f).outcome = .error e ↔
    x.outcome = .error e ∨ ∃ a, x.outcome = .ok a ∧ (f a).outcome = .error e := by
  cases h : x.outcome with
  | error e => simp [bind_of_error h]
  | ok a => simp [bind_of_ok h]

/-- What the whole computation has done, is done by a part of it. -/
theorem mem_trace_bind : t ∈ (x >>= f).trace ↔
    t ∈ x.trace ∨ ∃ a, x.outcome = .ok a ∧ t ∈ (f a).trace := by
  cases h : x.outcome with
  | error e => simp [bind_of_error h]
  | ok a => simp [bind_of_ok h]

theorem mem_trace_of_left (h : t ∈ x.trace) : t ∈ (x >>= f).trace := mem_trace_bind.2 (.inl h)

theorem mem_trace_of_right (hx : x.outcome = .ok a) (h : t ∈ (f a).trace) :
    t ∈ (x >>= f).trace := mem_trace_bind.2 (.inr ⟨a, hx, h⟩)

@[simp] theorem outcome_pure : (pure a : Traced ε τ α).outcome = .ok a := rfl
@[simp] theorem trace_pure : (pure a : Traced ε τ α).trace = [] := rfl
@[simp] theorem outcome_lift (r : Except ε α) : (lift r : Traced ε τ α).outcome = r := rfl
@[simp] theorem trace_lift (r : Except ε α) : (lift r : Traced ε τ α).trace = [] := rfl
@[simp] theorem outcome_call (r : Except ε α) : (call t r).outcome = r := rfl
@[simp] theorem trace_call (r : Except ε α) : (call t r).trace = [t] := rfl

@[simp] theorem outcome_passed (g : α → τ) (r : Except ε α) : (passed g r).outcome = r := by
  cases r <;> rfl

theorem mem_trace_passed {g : α → τ} {r : Except ε α} :
    t ∈ (passed g r).trace ↔ ∃ a, r = .ok a ∧ t = g a := by
  cases r <;> simp [passed]

@[simp] theorem trace_catching (g : ε → ε) : (x.catching g).trace = x.trace := rfl

@[simp] theorem outcome_catching (g : ε → ε) : (x.catching g).outcome = x.outcome.mapError g := rfl

theorem outcome_onlyIf {c : Bool} {y : Traced ε τ Unit} :
    (onlyIf c y).outcome = .ok () ↔ (c = true → y.outcome = .ok ()) := by
  cases c <;> simp [onlyIf]

theorem mem_trace_onlyIf {c : Bool} {y : Traced ε τ Unit} :
    t ∈ (onlyIf c y).trace ↔ c = true ∧ t ∈ y.trace := by
  cases c <;> simp [onlyIf]

/-! ### Every action -/

/-- Every action of the trace has a property. -/
def Each (P : τ → Prop) (x : Traced ε τ α) : Prop := ∀ t ∈ x.trace, P t

section Each

variable {Q : τ → Prop}

@[simp] theorem each_pure : Each Q (pure a : Traced ε τ α) := by
  intro t ht
  simp at ht

@[simp] theorem each_lift (r : Except ε α) : Each Q (lift r : Traced ε τ α) := by
  intro t ht
  simp at ht

@[simp] theorem each_call (r : Except ε α) : Each Q (call t r) ↔ Q t := by simp [Each]

@[simp] theorem each_passed (g : α → τ) (r : Except ε α) :
    Each Q (passed g r) ↔ ∀ a, r = .ok a → Q (g a) := by
  cases r <;> simp [Each, passed]

@[simp] theorem each_catching (g : ε → ε) : Each Q (x.catching g) ↔ Each Q x := Iff.rfl

theorem each_onlyIf {c : Bool} {y : Traced ε τ Unit} :
    Each Q (onlyIf c y) ↔ (c = true → Each Q y) := by
  cases c <;> simp [onlyIf]

theorem each_bind : Each Q (x >>= f) ↔ Each Q x ∧ ∀ a, x.outcome = .ok a → Each Q (f a) := by
  constructor
  · intro h
    refine ⟨fun t ht => h t (mem_trace_bind.2 (.inl ht)), ?_⟩
    intro a ha t ht
    exact h t (mem_trace_bind.2 (.inr ⟨a, ha, ht⟩))
  · rintro ⟨hx, hf⟩ t ht
    rcases mem_trace_bind.1 ht with ht | ⟨a, ha, ht⟩
    · exact hx t ht
    · exact hf a ha t ht

/-- The parts have the property whatever they answer. -/
theorem Each.bind (hx : Each Q x) (hf : ∀ a, Each Q (f a)) : Each Q (x >>= f) :=
  each_bind.2 ⟨hx, fun a _ => hf a⟩

theorem Each.mono {Q' : τ → Prop} (h : Each Q x) (hQ : ∀ t, Q t → Q' t) : Each Q' x :=
  fun t ht => hQ t (h t ht)

end Each

/-! ### Actions that earlier ones allow -/

/-- Every action is allowed by the ones before it, when `before` was done already. -/
def Always (P : List τ → τ → Prop) (before : List τ) (x : Traced ε τ α) : Prop :=
  ∀ pre t post, x.trace = pre ++ t :: post → P (before ++ pre) t

variable {P : List τ → τ → Prop} {before : List τ}

theorem always_call {r : Except ε α} : Always P before (call t r) ↔ P before t := by
  constructor
  · intro h
    simpa using h [] t [] rfl
  · intro h pre t' post heq
    rw [trace_call] at heq
    obtain ⟨rfl, rfl, -⟩ : pre = [] ∧ t' = t ∧ post = [] := by
      cases pre with
      | nil => simpa [eq_comm] using heq
      | cons _ _ => simp at heq
    simpa using h

theorem always_bind : Always P before (x >>= f) ↔
    Always P before x ∧ ∀ a, x.outcome = .ok a → Always P (before ++ x.trace) (f a) := by
  cases h : x.outcome with
  | error e => simp [Always, bind_of_error h]
  | ok a =>
    simp only [Always, bind_of_ok h, Except.ok.injEq, forall_eq']
    constructor
    · intro hall
      refine ⟨fun pre t post heq => ?_, fun pre t post heq => ?_⟩
      · exact hall pre t (post ++ (f a).trace) (by rw [heq]; simp)
      · have := hall (x.trace ++ pre) t post (by rw [heq]; simp)
        rwa [← List.append_assoc] at this
    · rintro ⟨hx, hf⟩ pre t post heq
      rcases List.append_eq_append_iff.1 heq with ⟨mid, hpre, hmid⟩ | ⟨mid, hx', hmid⟩
      · rw [hpre, ← List.append_assoc]
        exact hf mid t post hmid
      · cases mid with
        | nil =>
          have := hf [] t post (by simpa using hmid.symm)
          simpa [hx'] using this
        | cons t' mid =>
          obtain ⟨rfl, rfl⟩ : t = t' ∧ post = mid ++ (f a).trace := by simpa using hmid
          exact hx pre t mid hx'

/-- What `before` allows, whatever follows it. -/
theorem always_of_forall (h : ∀ t ∈ x.trace, ∀ pre, P (before ++ pre) t) : Always P before x := by
  intro pre t post heq
  exact h t (by rw [heq]; simp) pre

end Traced
