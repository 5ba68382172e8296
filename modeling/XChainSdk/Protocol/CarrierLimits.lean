import Mathlib.Order.Basic
import Mathlib.Data.Nat.Basic
import Mathlib.Tactic.SplitIfs

/-!
# How much a carrier holds

An action is pushed into a script, and the length of the compiled push is what the limit of a
carrier bounds.

* `compiledPushSize`, `envelopePayloadSize` : the length of a push.
* `carrierCeiling` : the length that is measured, and the limit it is held against.
-/

namespace XChainSdk

def MAX_ACTION_DATA_LENGTH : ℕ := 8192

def ENVELOPE_MAX_PAYLOAD : ℕ := 390000

/-- `compiledPushSize` -/
def compiledPushSize (n : ℕ) : ℕ := if n ≤ 75 then n + 1 else if n ≤ 255 then n + 2 else n + 3

/-- `envelopePayloadSize` -/
def envelopePayloadSize (n : ℕ) : ℕ := if n ≤ 65535 then compiledPushSize n else n + 5

/-- The measured length and the limit. -/
structure CarrierCeiling where
  legacy : Bool
  size : ℕ
  limit : ℕ
  deriving DecidableEq

/-- `carrierCeiling`, given whether the carrier is one of `LEGACY_CARRIERS`. -/
def carrierCeiling (n : ℕ) (legacy : Bool) : CarrierCeiling :=
  if legacy then ⟨true, compiledPushSize n, MAX_ACTION_DATA_LENGTH⟩
  else ⟨false, envelopePayloadSize n, ENVELOPE_MAX_PAYLOAD⟩

theorem compiledPushSize_mono {m n : ℕ} (h : m ≤ n) : compiledPushSize m ≤ compiledPushSize n := by
  unfold compiledPushSize
  split_ifs <;> omega

theorem envelopePayloadSize_mono {m n : ℕ} (h : m ≤ n) :
    envelopePayloadSize m ≤ envelopePayloadSize n := by
  have hpush := compiledPushSize_mono h
  have hle : compiledPushSize m ≤ m + 3 := by
    unfold compiledPushSize
    split_ifs <;> omega
  unfold envelopePayloadSize
  split_ifs <;> omega

/-- A shorter action is held by whatever holds a longer one. -/
theorem carrierCeiling_mono {m n : ℕ} {legacy : Bool} (h : m ≤ n)
    (hn : (carrierCeiling n legacy).size ≤ (carrierCeiling n legacy).limit) :
    (carrierCeiling m legacy).size ≤ (carrierCeiling m legacy).limit := by
  cases legacy with
  | true => exact (compiledPushSize_mono h).trans hn
  | false => exact (envelopePayloadSize_mono h).trans hn

end XChainSdk
