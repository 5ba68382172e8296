import Mathlib.Algebra.Order.Field.Rat
import Mathlib.Algebra.Order.BigOperators.Group.List
import Mathlib.Tactic.Linarith

/-!
# What the commands of a batch do to their source

The rules of the ledger as far as they concern the balances of one address.

* `LedgerCommand`, `SourceLedger` : the commands, and the balances of the source.
* `LedgerCommand.Lacks` : the source does not hold what the command takes.
* `SourceLedger.apply`, `SourceLedger.run` : commands in their order; one that fails changes
  nothing.
-/

namespace XChainSdk

/-- One leg of a spend. -/
structure SpendLeg (T : Type) where
  token : T
  amount : ℚ
  toSource : Bool

/-- A command of the source, by the tokens that its names stand for. -/
inductive LedgerCommand (T : Type)
  /-- A command that no rule accepts. -/
  | invalid
  | mint (token : T) (amount : ℚ) (toSource : Bool)
  | issue (token : T) (fee supply : ℚ) (toSource : Bool)
  /-- `SEND`, or a `DESTROY`, of which no leg goes to the source. -/
  | spend (legs : List (SpendLeg T))

/-- The balances of the source, and the tokens that have an issuance. -/
structure SourceLedger (T : Type) where
  balance : T → ℚ
  issued : T → Bool

variable {T : Type} [DecidableEq T]

namespace LedgerCommand

variable (gas : T) (s : SourceLedger T)

/-- What the command takes: the fee of a first issuance, or every leg. -/
def debit : LedgerCommand T → T → ℚ
  | issue token fee _ _, t => if t = gas ∧ s.issued token = false then fee else 0
  | spend legs, t => (legs.map fun l => if l.token = t then l.amount else 0).sum
  | _, _ => 0

/-- What the command gives to the source. -/
def credit : LedgerCommand T → T → ℚ
  | mint token amount toSource, t => if token = t ∧ toSource = true then amount else 0
  | issue token _ supply toSource, t => if token = t ∧ toSource = true then supply else 0
  | spend legs, t => (legs.map fun l => if l.token = t ∧ l.toSource = true then l.amount else 0).sum
  | invalid, _ => 0

/-- The tokens that the command takes from. -/
def tokens : LedgerCommand T → List T
  | issue _ _ _ _ => [gas]
  | spend legs => legs.map SpendLeg.token
  | _ => []

/-- The source does not hold what the command takes. -/
def Lacks (c : LedgerCommand T) : Prop := ∃ t ∈ c.tokens gas, s.balance t < c.debit gas s t

instance (c : LedgerCommand T) : Decidable (c.Lacks gas s) :=
  inferInstanceAs (Decidable (∃ t ∈ c.tokens gas, _))

omit [DecidableEq T] in
/-- What passes through the balances when the command runs. -/
def volume : LedgerCommand T → ℚ
  | invalid => 0
  | mint _ amount _ => amount
  | issue _ fee supply _ => fee + supply
  | spend legs => 2 * (legs.map SpendLeg.amount).sum

end LedgerCommand

namespace SourceLedger

variable (gas : T)

/-- A command; one that lacks its balance changes nothing. -/
def apply (s : SourceLedger T) (c : LedgerCommand T) : SourceLedger T :=
  if c.Lacks gas s then s
  else
    { balance := fun t => s.balance t - c.debit gas s t + c.credit t
      issued := fun t => s.issued t || match c with
        | .issue token _ _ _ => decide (t = token)
        | _ => false }

/-- The commands in their order. -/
def run (s : SourceLedger T) (cs : List (LedgerCommand T)) : SourceLedger T :=
  cs.foldl (apply gas) s

theorem apply_of_lacks {s : SourceLedger T} {c : LedgerCommand T} (h : c.Lacks gas s) :
    apply gas s c = s := if_pos h

theorem balance_apply {s : SourceLedger T} {c : LedgerCommand T} (h : ¬c.Lacks gas s) (t : T) :
    (apply gas s c).balance t = s.balance t - c.debit gas s t + c.credit t := by
  rw [apply, if_neg h]

end SourceLedger

end XChainSdk
