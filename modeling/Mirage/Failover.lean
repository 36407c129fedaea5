import Mathlib.Data.List.Basic
import Mathlib.Data.UInt

/-!
# Failover policy

The policy which the shell hands to the kernel, and the two pure functions of
the watchdog on it: how long it waits between two rounds, and how its back-off
grows.  A policy is sent as text; `none` stands for a text which does not parse,
and an absent field is filled in by `FailoverFields.policy`.
-/

namespace Mirage.Failover

/-- The kinds of the events which the kernel emits to the shell. -/
inductive EventKind where
  | switched
  | restartRequested
  deriving DecidableEq, Repr

def EventKind.code : EventKind → ℤ
  | .switched => 0
  | .restartRequested => 1

structure FailoverPolicy where
  mode : String
  intervalSec : UInt32
  backoffSec : UInt32
  restartDelayMs : UInt32
  enabled : Bool
  deriving DecidableEq, Repr

def defaultMode : String := "best"
def defaultInterval : UInt32 := 15
def defaultRestartDelay : UInt32 := 3000

def FailoverPolicy.default : FailoverPolicy where
  mode := defaultMode
  intervalSec := defaultInterval
  backoffSec := 0
  restartDelayMs := defaultRestartDelay
  enabled := false

/-- The fields of a policy as they are received; each may be absent. -/
structure FailoverFields where
  mode : Option String
  intervalSec : Option UInt32
  backoffSec : Option UInt32
  restartDelayMs : Option UInt32
  enabled : Option Bool
  deriving DecidableEq, Repr

def FailoverFields.policy (fields : FailoverFields) : FailoverPolicy where
  mode := fields.mode.getD defaultMode
  intervalSec := fields.intervalSec.getD defaultInterval
  backoffSec := fields.backoffSec.getD 0
  restartDelayMs := fields.restartDelayMs.getD defaultRestartDelay
  enabled := fields.enabled.getD false

/-- A policy without any field is the default one, which is disabled. -/
theorem policy_of_no_fields :
    (FailoverFields.mk none none none none none).policy = FailoverPolicy.default :=
  rfl

/-- `set_policy`: a text which does not parse leaves the policy as it was. -/
def setPolicy (current : FailoverPolicy) : Option FailoverFields → FailoverPolicy × Bool
  | some fields => (fields.policy, true)
  | none => (current, false)

/-- `set_node_list`, with the number of entries that it returns. -/
def setNodeList (current : List String) : Option (List String) → List String × Option ℕ
  | some nodes => (nodes, some nodes.length)
  | none => (current, none)

/-- `escalate_backoff`: five more seconds, saturating, and at most thirty. -/
def escalateBackoff (current : UInt32) : UInt32 :=
  min (UInt32.ofNat (min (current.toNat + 5) (UInt32.size - 1))) 30

/-- The seconds which the watchdog sleeps before a round; the sum is taken in `u32`. -/
def FailoverPolicy.wait (policy : FailoverPolicy) (dynamicBackoff : UInt32) : UInt32 :=
  max policy.intervalSec 5 + policy.backoffSec + dynamicBackoff

/-- The sum under `wait` as a natural number. -/
def FailoverPolicy.waitSum (policy : FailoverPolicy) (dynamicBackoff : UInt32) : ℕ :=
  max policy.intervalSec.toNat 5 + policy.backoffSec.toNat + dynamicBackoff.toNat

theorem toNat_max (first second : UInt32) :
    (max first second).toNat = max first.toNat second.toNat := by
  simp only [max, Max.max, UInt32.le_iff_toNat_le]
  split <;> omega

theorem toNat_min (first second : UInt32) :
    (min first second).toNat = min first.toNat second.toNat := by
  simp only [min, Min.min, UInt32.le_iff_toNat_le]
  split <;> omega

/-- The back-off of the watchdog never leaves the range up to thirty seconds. -/
theorem escalateBackoff_le (current : UInt32) : (escalateBackoff current).toNat ≤ 30 := by
  rw [escalateBackoff, toNat_min]
  exact min_le_right _ _

theorem toNat_wait (policy : FailoverPolicy) (dynamicBackoff : UInt32) :
    (policy.wait dynamicBackoff).toNat = policy.waitSum dynamicBackoff % UInt32.size := by
  simp only [FailoverPolicy.wait, FailoverPolicy.waitSum, UInt32.toNat_add, toNat_max]
  exact Nat.mod_add_mod _ _ _

/-- The wait is the sum exactly if the sum fits into `u32`. -/
theorem toNat_wait_eq_iff (policy : FailoverPolicy) (dynamicBackoff : UInt32) :
    (policy.wait dynamicBackoff).toNat = policy.waitSum dynamicBackoff ↔
      policy.waitSum dynamicBackoff < UInt32.size := by
  rw [toNat_wait]
  exact Nat.mod_eq_iff_lt (by decide)

theorem five_le_waitSum (policy : FailoverPolicy) (dynamicBackoff : UInt32) :
    5 ≤ policy.waitSum dynamicBackoff := by
  unfold FailoverPolicy.waitSum
  omega

end Mirage.Failover
