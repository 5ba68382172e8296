import Mathlib.Data.List.Basic
import Mathlib.Order.Basic

/-!
# Runs whose steps meet a condition

* `Runs.Along` : every step of a run meets a condition on the state before it.
* `Runs.Along.inv` : an invariant that such steps keep holds after the run.
* `Runs.Along.timed` : the same for an invariant that speaks of the time.
* `Runs.Along.of_append` : the condition holds along every prefix.
-/

namespace Runs

variable {σ ε : Type*} (step : σ → ε → σ)

/-- Every step of the run meets the condition. -/
def Along (P : σ → ε → Prop) : σ → List ε → Prop
  | _, [] => True
  | s, e :: es => P s e ∧ Along P (step s e) es

instance decidableAlong (P : σ → ε → Prop) [∀ s e, Decidable (P s e)] :
    ∀ s es, Decidable (Along step P s es)
  | _, [] => inferInstanceAs (Decidable True)
  | s, e :: es =>
    have := decidableAlong P (step s e) es
    inferInstanceAs (Decidable (P s e ∧ Along step P (step s e) es))

variable {step} {P Q : σ → ε → Prop} {s : σ} {e : ε} {es es' : List ε}

theorem Along.inv {I : σ → Prop} (hstep : ∀ s e, I s → P s e → I (step s e)) (h : I s)
    (hrun : Along step P s es) : I (es.foldl step s) := by
  induction es generalizing s with
  | nil => exact h
  | cons e es ih => exact ih (hstep s e h hrun.1) hrun.2

/-- An invariant that speaks of the time, when times do not decrease. -/
theorem Along.timed {τ : Type*} [Preorder τ] {time : ε → τ} {I : τ → σ → Prop}
    (hmono : ∀ t t' s, t ≤ t' → I t s → I t' s)
    (hstep : ∀ s e, I (time e) s → P s e → I (time e) (step s e)) {t now : τ} (h : I t s)
    (hstart : ∀ e ∈ es, t ≤ time e) (hsorted : (es.map time).Pairwise (· ≤ ·))
    (hend : ∀ e ∈ es, time e ≤ now) (hle : t ≤ now) (hrun : Along step P s es) :
    I now (es.foldl step s) := by
  induction es generalizing s t with
  | nil => exact hmono t now s hle h
  | cons e es ih =>
    rw [List.map_cons, List.pairwise_cons] at hsorted
    have he : I (time e) (step s e) :=
      hstep s e (hmono t (time e) s (hstart e (by simp)) h) hrun.1
    exact ih he (fun x hx => hsorted.1 _ (List.mem_map_of_mem hx)) hsorted.2
      (fun x hx => hend x (by simp [hx])) (hend e (by simp)) hrun.2

theorem along_append : Along step P s (es ++ es') ↔
    Along step P s es ∧ Along step P (es.foldl step s) es' := by
  induction es generalizing s with
  | nil => simp [Along]
  | cons e es ih => simp [Along, ih, and_assoc]

theorem Along.of_append (h : Along step P s (es ++ es')) : Along step P s es :=
  (along_append.1 h).1

theorem along_true : Along step (fun _ _ => True) s es := by
  induction es generalizing s with
  | nil => trivial
  | cons e es ih => exact ⟨trivial, ih⟩

theorem Along.imp (h : ∀ s e, P s e → Q s e) (hrun : Along step P s es) : Along step Q s es := by
  induction es generalizing s with
  | nil => trivial
  | cons e es ih => exact ⟨h s e hrun.1, ih hrun.2⟩

theorem Along.and (hP : Along step P s es) (hQ : Along step Q s es) :
    Along step (fun s e => P s e ∧ Q s e) s es := by
  induction es generalizing s with
  | nil => trivial
  | cons e es ih => exact ⟨⟨hP.1, hQ.1⟩, ih hP.2 hQ.2⟩

/-- The condition holds along a run if it holds at the end of every prefix. -/
theorem along_of_prefix
    (h : ∀ before e later, es = before ++ [e] ++ later → P (before.foldl step s) e) :
    Along step P s es := by
  induction es generalizing s with
  | nil => trivial
  | cons e es ih =>
    refine ⟨h [] e es rfl, ih fun before e' later he => ?_⟩
    exact h (e :: before) e' later (by simp [he])

end Runs
