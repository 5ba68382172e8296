import XChainSdk.Js.Value

/-!
# Which formats state their value

An amount cap can bind a format only when the amount that the account gives up is stated by the
action's own fields.  The table is an allowlist: a format that is absent is refused under any
amount limit.

* `ValueClass` : the four classes.
* `TABLE`, `classify` : the class of a decoded action, with the fields that demote it.
* `isCapInert` : actions whose value is always a property of another object.
-/

namespace XChainSdk

/-- What the action string says about the value that moves. -/
inductive ValueClass where
  /-- no amount moves -/
  | none
  /-- amount and token are in the string -/
  | derivable
  /-- native coin, bounded by the output gate -/
  | native
  /-- not derivable -/
  | unbounded
  deriving DecidableEq

/-- One classified format. -/
structure DerivabilityEntry where
  kind : ValueClass
  byRef : Bool := false
  unlessSet : List String := []

/-- The class of every format that a co-signer can decode. -/
def TABLE : List (String × List (ℕ × DerivabilityEntry)) := [
  ("ADDRESS", [
    (0, { kind := .none }),
    (1, { kind := .none })]),
  ("AIRDROP", [
    (0, { kind := .unbounded, byRef := true })]),
  ("BATCH", [
    (0, { kind := .unbounded })]),
  ("BET", [
    (0, { kind := .none }),
    (1, { kind := .unbounded, byRef := true }),
    (2, { kind := .unbounded, byRef := true }),
    (3, { kind := .unbounded, byRef := true }),
    (4, { kind := .none })]),
  ("BROADCAST", [
    (0, { kind := .none }),
    (1, { kind := .none }),
    (2, { kind := .none }),
    (3, { kind := .none })]),
  ("CALLBACK", [
    (0, { kind := .unbounded })]),
  ("COINPAY", [
    (0, { kind := .native, byRef := true })]),
  ("COLLECT", [
    (0, { kind := .none })]),
  ("DELEGATE", [
    (0, { kind := .none }),
    (1, { kind := .none }),
    (2, { kind := .none }),
    (3, { kind := .none })]),
  ("DEPLOY", [
    (1, { kind := .none }),
    (3, { kind := .none }),
    (4, { kind := .none })]),
  ("DEPOSIT", [
    (0, { kind := .derivable })]),
  ("DESTROY", [
    (0, { kind := .derivable })]),
  ("DISPENSER", [
    (0, { kind := .derivable, unlessSet := ["GIVE_OWNERSHIP"] }),
    (1, { kind := .unbounded, byRef := true }),
    (2, { kind := .unbounded, byRef := true })]),
  ("DIVIDEND", [
    (0, { kind := .unbounded })]),
  ("EXECUTE", [
    (0, { kind := .unbounded, byRef := true })]),
  ("FILE", [
    (0, { kind := .none })]),
  ("ISSUE", [
    (0, { kind := .none, unlessSet := ["TRANSFER", "TRANSFER_SUPPLY"] }),
    (1, { kind := .none }),
    (2, { kind := .none, unlessSet := ["TRANSFER_SUPPLY"] }),
    (3, { kind := .none }),
    (4, { kind := .none }),
    (5, { kind := .none }),
    (6, { kind := .none }),
    (7, { kind := .none })]),
  ("LINK", [
    (0, { kind := .none })]),
  ("LIST", [
    (2, { kind := .none }),
    (3, { kind := .none }),
    (4, { kind := .none }),
    (5, { kind := .none })]),
  ("MESSAGE", [
    (0, { kind := .none }),
    (1, { kind := .none }),
    (2, { kind := .none }),
    (3, { kind := .none })]),
  ("MINT", [
    (0, { kind := .derivable })]),
  ("ORDER", [
    (0, { kind := .derivable, unlessSet := ["GIVE_OWNERSHIP"] }),
    (1, { kind := .unbounded, byRef := true }),
    (2, { kind := .unbounded, byRef := true })]),
  ("PRICE", [
    (1, { kind := .none })]),
  ("SEND", [
    (0, { kind := .derivable })]),
  ("SLEEP", [
    (0, { kind := .none }),
    (1, { kind := .none })]),
  ("STAKE", [
    (1, { kind := .derivable }),
    (2, { kind := .derivable }),
    (3, { kind := .derivable })]),
  ("SWAP", [
    (0, { kind := .derivable, unlessSet := ["GIVE_OWNERSHIP"] }),
    (1, { kind := .unbounded, byRef := true }),
    (2, { kind := .unbounded, byRef := true })]),
  ("SWEEP", [
    (0, { kind := .unbounded })]),
  ("UNSTAKE", [
    (0, { kind := .none }),
    (1, { kind := .none })]),
  ("VOTE", [
    (0, { kind := .derivable }),
    (1, { kind := .none }),
    (3, { kind := .none })]),
  ("WITHDRAW", [
    (0, { kind := .none })]),
  ("XBRIDGE", [
    (0, { kind := .derivable }),
    (1, { kind := .derivable }),
    (3, { kind := .derivable }),
    (4, { kind := .derivable })])]

/-- The entry of one format. -/
def tableEntry (action : String) (version : ℕ) : Option DerivabilityEntry :=
  (TABLE.lookup action).bind fun byAction => byAction.lookup version

/-- Params of a decoded action: the own members of an object. -/
abbrev Params := List (String × Js)

/-- `v !== undefined && v !== null && v !== ''`. -/
def isPresent : Js → Bool
  | .undefined | .null => false
  | .str s => s != ""
  | _ => true

/-- A class with the field that demoted it. -/
structure Classification where
  kind : ValueClass
  byRef : Bool
  blockedBy : Option String

/-- The class of a decoded action; an unknown format is unbounded. -/
def classify (action : String) (version : ℕ) (params : Params) : Classification :=
  match tableEntry action version with
  | none => ⟨.unbounded, false, none⟩
  | some entry =>
    match entry.unlessSet.find? fun field => isPresent (Js.member params field) with
    | some field => ⟨.unbounded, entry.byRef, some field⟩
    | none => ⟨entry.kind, entry.byRef, none⟩

/-- Every format of the action defines its value by reference. -/
def isCapInert (action : String) : Bool :=
  match TABLE.lookup action with
  | none => false
  | some byAction => !byAction.isEmpty && byAction.all fun e => e.2.byRef

/-- A format is not demoted exactly when it is listed with a class that states its value and none
of the fields that move value otherwise is set. -/
theorem classify_kind_ne_unbounded {action : String} {version : ℕ} {params : Params} :
    (classify action version params).kind ≠ .unbounded ↔
      ∃ entry, tableEntry action version = some entry ∧ entry.kind ≠ .unbounded ∧
        ∀ field ∈ entry.unlessSet, isPresent (Js.member params field) = false := by
  unfold classify
  cases hentry : tableEntry action version with
  | none => simp
  | some entry =>
    cases hfind : entry.unlessSet.find? fun field => isPresent (Js.member params field) with
    | none =>
      have hall := List.find?_eq_none.1 hfind
      simp only [hfind, Option.some.injEq, exists_eq_left']
      exact ⟨fun h => ⟨h, fun field hf => by simpa using hall field hf⟩, fun h => h.1⟩
    | some field =>
      have hmem := List.mem_of_find?_eq_some hfind
      have hpres : isPresent (Js.member params field) = true := by simpa using List.find?_some hfind
      simp only [hfind, ne_eq, not_true, false_iff, Option.some.injEq, exists_eq_left']
      rintro ⟨-, hall⟩
      exact absurd (hall field hmem) (by simp [hpres])

end XChainSdk
