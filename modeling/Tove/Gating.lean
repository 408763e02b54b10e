import Tove.Soroban

/-!
# The gating contracts

The contracts `EmergencyFreeze` of `tove-emergency-freeze` and `KycAllowlist` of
`tove-kyc-allowlist`. Each is a set of addresses that its admin changes; adding a member and
removing a stranger change nothing. The lifetime extensions of storage entries are left out.
-/

namespace Gating

open Soroban

/-- A set of addresses with its admin. -/
structure Registry where
  admin : Address
  members : Address → Bool

/-- The events that the contracts publish. -/
inductive Event where
  | FreezeAdded (addr : Address) (reasonHash : BytesN32)
  | FreezeRemoved (addr : Address) (reasonHash : BytesN32)
  | KycAdded (addr : Address)
  | KycRemoved (addr : Address)
  deriving DecidableEq, Repr

/-- The outcome of a call.  The contracts have no errors of their own. -/
abbrev Outcome (α : Type) : Type := Except (Failure Empty) α

/-- `__constructor`: an empty set. -/
def construct (admin : Address) : Registry := ⟨admin, fun _ => false⟩

/-- Make an address a member, or not a member any more, and publish an event when that is a
change. -/
def setMember (env : Env) (addr : Address) (member : Bool) (event : Event) (r : Registry) :
    Outcome (Registry × List Event) := do
  requireAuth env r.admin
  if r.members addr = member then return (r, [])
  else return ({ r with members := Function.update r.members addr member }, [event])

/-- `set_admin`. -/
def setAdmin (env : Env) (newAdmin : Address) (r : Registry) : Outcome (Registry × List Event) := do
  requireAuth env r.admin
  return ({ r with admin := newAdmin }, [])

/-! ### The freeze set -/

/-- `is_frozen`. -/
def isFrozen (r : Registry) (addr : Address) : Bool := r.members addr

/-- `freeze`. -/
def freeze (env : Env) (addr : Address) (reasonHash : BytesN32) :
    Registry → Outcome (Registry × List Event) :=
  setMember env addr true (.FreezeAdded addr reasonHash)

/-- `unfreeze`. -/
def unfreeze (env : Env) (addr : Address) (reasonHash : BytesN32) :
    Registry → Outcome (Registry × List Event) :=
  setMember env addr false (.FreezeRemoved addr reasonHash)

/-! ### The allowlist -/

/-- `is_allowed`. -/
def isAllowed (r : Registry) (addr : Address) : Bool := r.members addr

/-- `add`. -/
def add (env : Env) (addr : Address) : Registry → Outcome (Registry × List Event) :=
  setMember env addr true (.KycAdded addr)

/-- `remove`. -/
def remove (env : Env) (addr : Address) : Registry → Outcome (Registry × List Event) :=
  setMember env addr false (.KycRemoved addr)

/-! ### The contracts on the chain -/

/-- A gating contract. -/
inductive Contract where
  | freezeSet (r : Registry)
  | kycAllowlist (r : Registry)

/-- A call of a gating contract. -/
inductive Call where
  | freeze (addr : Address) (reasonHash : BytesN32)
  | unfreeze (addr : Address) (reasonHash : BytesN32)
  | add (addr : Address)
  | remove (addr : Address)
  | setAdmin (newAdmin : Address)
  deriving DecidableEq, Repr

/-- Run a call.  A contract traps on the functions of the other one. -/
def perform (env : Env) : Call → Contract → Outcome (Contract × List Event)
  | .freeze addr reason, .freezeSet r => do
    let (r, events) ← freeze env addr reason r
    return (.freezeSet r, events)
  | .unfreeze addr reason, .freezeSet r => do
    let (r, events) ← unfreeze env addr reason r
    return (.freezeSet r, events)
  | .add addr, .kycAllowlist r => do
    let (r, events) ← add env addr r
    return (.kycAllowlist r, events)
  | .remove addr, .kycAllowlist r => do
    let (r, events) ← remove env addr r
    return (.kycAllowlist r, events)
  | .setAdmin newAdmin, .freezeSet r => do
    let (r, events) ← setAdmin env newAdmin r
    return (.freezeSet r, events)
  | .setAdmin newAdmin, .kycAllowlist r => do
    let (r, events) ← setAdmin env newAdmin r
    return (.kycAllowlist r, events)
  | _, _ => throw .trap

end Gating
