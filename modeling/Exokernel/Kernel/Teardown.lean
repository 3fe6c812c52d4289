/-
  The end of an environment.

  An environment ends by a call of its own or of its parent, or because it passed a bad pointer
  or asked for a heap that cannot be.  Nobody is left waiting for it: a sender whose message is
  parked for it is woken and finds that its send failed.
-/
import Exokernel.Kernel.State
import Exokernel.Memory.UserRange

namespace Exokernel.Kernel

/-- Wake the environment in a slot from its parked send to `target`, which fails. -/
def abortSend (k : Kernel) (target : EnvId) (slot : Nat) : Kernel :=
  (k.updateEnv slot fun e => e.wakeSender CallError.badEnv.code).note
    (.sendAborted (k.env slot).id target)

/-- Clear a slot and destroy the space of the environment that was in it. -/
def vacate (k : Kernel) (slot : Nat) : Kernel :=
  { k with
    envs := k.envs.vacate slot
    memory := match (k.env slot).space with
      | some s => k.memory.destroySpace s
      | none => k.memory }

/-- End the environment in a slot. -/
def destroy (k : Kernel) (slot : Nat) : Kernel :=
  let id := (k.env slot).id
  let k := k.updateEnv slot fun e => { e with status := .dying }
  let k := (k.envs.sendersTo id).foldl (fun k sender => k.abortSend id sender) k
  (k.vacate slot).note (.freed id)

/-! ## Pointers -/

/-- Check a range that the environment in a slot passed.  An environment without a space has no
  address to pass. -/
def userRange (k : Kernel) (slot : Nat) (va : VirtAddr) (len : Nat) (access : Access) :
    Except VirtAddr UserRange :=
  match (k.env slot).space with
  | some s => k.memory.checkRange s va len access
  | none => .error va

/-- The bytes of a range in the space of the environment in a slot. -/
def copyIn (k : Kernel) (slot : Nat) (range : UserRange) : Check (Array UInt8) := do
  let s ← k.spaceOf slot
  Check.ofMapping (k.memory.copyIn s range)

end Exokernel.Kernel
