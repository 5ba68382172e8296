import Mathlib.Algebra.Order.BigOperators.Group.List
import XChainSdk.Lib.Loop
import XChainSdk.Protocol.WireVersion

/-!
# The limits of a batch

A batch is bounded by the number of its commands, by their weight and by caps on single actions.
All three are read off the raw text of the commands.

* `classifyCommand`, `commandTick` : the cap that a command counts under, and its tick.
* `subCommandWeight`, `batchWeight` : what commands weigh.
* `airdropLegCount` : the legs that an airdrop is charged for.
* `length_le_batchWeight` : every command weighs at least one.
-/

namespace XChainSdk

def BATCH_COMMAND_LIMIT : ℕ := 250

def BATCH_WEIGHT_BUDGET : ℕ := 250

/-- `BATCH_COMMAND_WEIGHTS` -/
def BATCH_COMMAND_WEIGHTS : List (String × ℕ) :=
  [("AIRDROP", 25), ("DIVIDEND", 25), ("DEPLOY", 30), ("EXECUTE", 30), ("XEXEC", 30)]

def CHILD_ISSUE_KEY : String := "ISSUE.CHILD"

/-! ### Classification -/

/-- `classifyIssueTick` -/
def classifyIssueTick : Option String → String
  | none => "ISSUE"
  | some tick =>
    if tick.toList.head? = some '^' then "ISSUE"
    else if tick.toList.contains '.' then CHILD_ISSUE_KEY
    else "ISSUE"

/-- The action of a raw command. -/
def commandAction (command : String) : String := expandAlias ((splitPipes command).headD "")

/-- The values of a raw command, with the implied version in place. -/
def commandParams (command : String) : List String :=
  injectVersion (commandAction command) ((splitPipes command).drop 1)

/-- `classifyCommand` -/
def classifyCommand (command : String) : String :=
  if commandAction command = "ISSUE" then classifyIssueTick (commandParams command)[1]?
  else commandAction command

/-- `commandTick` -/
def commandTick (command : String) : String := trim ((commandParams command).getD 1 "")

/-! ### Weights -/

/-- `actionWeight` -/
def actionWeight (action : String) : ℕ := (BATCH_COMMAND_WEIGHTS.lookup (expandAlias action)).getD 1

/-- The value at a position opens a leg of an airdrop, or completes its first slots. -/
def legAt (format last idx : ℕ) : Bool :=
  (format == 0 && idx == 0) || (format == 1 && decide (1 < idx) && idx % 2 == 1) ||
    (format == 2 && decide (0 < idx) && idx % 3 == 1 && decide (idx < last)) ||
    (format == 3 && decide (0 < idx) && idx % 4 == 1 && decide (idx < last))

/-- `airdropLegCount` -/
def airdropLegCount (params : List String) : ℕ :=
  match (formatVersion params.head?).bind JsNum.safeNat? with
  | none => 1
  | some format =>
    if 3 < format then 1
    else max 1 ((List.range params.length).countP (legAt format (params.length - 1)))

/-- `airdropLegFactor`, given whether the weighting by legs is active. -/
def airdropLegFactor (action command : String) (active : Bool) : ℕ :=
  if action = "AIRDROP" ∧ active then airdropLegCount ((splitPipes command).drop 1) else 1

/-- `subCommandWeight`; a chunk carrier weighs one. -/
def subCommandWeight (command : String) (active : Bool) : ℕ :=
  let action := commandAction command
  if action = "DEPLOY" ∧ formatVersion (splitPipes command)[1]? = some (.fin 4) then 1
  else actionWeight action * airdropLegFactor action command active

/-- `batchWeight` -/
def batchWeight (commands : List String) (active : Bool) : ℕ :=
  (commands.map fun command => subCommandWeight command active).sum

theorem one_le_actionWeight (action : String) : 1 ≤ actionWeight action := by
  rw [actionWeight]
  cases h : BATCH_COMMAND_WEIGHTS.lookup (expandAlias action) with
  | none => exact Nat.le_refl 1
  | some weight =>
    have hall : ∀ e ∈ BATCH_COMMAND_WEIGHTS, 1 ≤ e.2 := by decide
    exact hall _ (Loop.mem_of_lookup h)

theorem one_le_airdropLegCount (params : List String) : 1 ≤ airdropLegCount params := by
  rw [airdropLegCount]
  split
  · exact Nat.le_refl 1
  · split_ifs
    · exact Nat.le_refl 1
    · exact le_max_left _ _

theorem one_le_subCommandWeight (command : String) (active : Bool) :
    1 ≤ subCommandWeight command active := by
  rw [subCommandWeight]
  split_ifs
  · exact Nat.le_refl 1
  · refine Nat.mul_pos (one_le_actionWeight _) ?_
    rw [airdropLegFactor]
    split_ifs
    · exact one_le_airdropLegCount _
    · exact Nat.le_refl 1

/-- Every command weighs at least one. -/
theorem length_le_batchWeight (commands : List String) (active : Bool) :
    commands.length ≤ batchWeight commands active := by
  have hone : ∀ w ∈ commands.map fun command => subCommandWeight command active, 1 ≤ w := by
    intro w hw
    obtain ⟨command, -, rfl⟩ := List.mem_map.1 hw
    exact one_le_subCommandWeight command active
  have hlen := List.length_le_sum_of_one_le _ hone
  rw [List.length_map] at hlen
  exact hlen

/-! ### The legs of an airdrop -/

/-- A count over positions is the function that it advances. -/
theorem countP_range_eq {f : ℕ → Bool} (g : ℕ → ℕ) (h0 : g 0 = 0)
    (hstep : ∀ m, g (m + 1) = g m + if f m = true then 1 else 0) (n : ℕ) :
    (List.range n).countP f = g n := by
  induction n with
  | zero => exact h0.symm
  | succ n ih => rw [List.range_succ, List.countP_append, ih, hstep, List.countP_singleton]

/-- The legs charged for `n` values, the version among them. -/
def chargedLegs (format n : ℕ) : ℕ :=
  match format with
  | 1 => max 1 (n / 2 - 1)
  | 2 => max 1 (n / 3)
  | 3 => max 1 ((n + 1) / 4)
  | _ => 1

theorem max_countP_legAt {format : ℕ} (h : format ≤ 3) (n : ℕ) :
    max 1 ((List.range n).countP (legAt format (n - 1))) = chargedLegs format n := by
  have hlast : min n (n - 1) = n - 1 := by omega
  match format, h with
  | 0, _ =>
    rw [countP_range_eq (fun m => min m 1) rfl fun m => by
      by_cases h : m = 0
      · simp [legAt, h]
      · simp [legAt, h]
        omega]
    simp [chargedLegs]
  | 1, _ =>
    rw [countP_range_eq (fun m => m / 2 - 1) rfl fun m => by
      simp [legAt]
      split_ifs <;> omega]
    rfl
  | 2, _ =>
    rw [countP_range_eq (fun m => (min m (n - 1) + 1) / 3) (by simp) fun m => by
      simp [legAt]
      split_ifs <;> omega, hlast]
    simp only [chargedLegs]
    omega
  | 3, _ =>
    rw [countP_range_eq (fun m => (min m (n - 1) + 2) / 4) (by simp) fun m => by
      simp [legAt]
      split_ifs <;> omega, hlast]
    simp only [chargedLegs]
    omega

theorem airdropLegCount_eq {params : List String} {format : ℕ}
    (h : (formatVersion params.head?).bind JsNum.safeNat? = some format) :
    airdropLegCount params = chargedLegs format params.length := by
  rw [airdropLegCount, h]
  dsimp only
  split_ifs with hlarge
  · match format, hlarge with
    | _ + 4, _ => rfl
  · exact max_countP_legAt (Nat.le_of_not_lt hlarge) _

end XChainSdk
