/-
  Calls of an environment on itself and on its children.

  An environment creates children, prepares them, starts them and ends them.  It may also become
  one of them: with `execCommit` the caller takes over registers, space and heap of a child and
  the child ends together with the space that the caller had.
-/
import Exokernel.Kernel.Reply

namespace Exokernel.Kernel

/-- The id of the caller. -/
def ownId (k : Kernel) : Check (Kernel × Flow) := do
  let cur ← k.caller
  return (k, .answer (k.env cur).id.toResult)

/-- Give way to others; the caller can still run and later finds the result zero. -/
def yield (k : Kernel) : Check (Kernel × Flow) := do
  let cur ← k.caller
  return (k.updateEnv cur fun e => { e with pending := some 0 }, .reschedule)

/-- End an environment, possibly the caller. -/
def destroyEnv (k : Kernel) (id : EnvId) : Check (Kernel × Flow) := do
  let slot ← k.target id .owned
  let cur ← k.caller
  let event : Event :=
    if slot = cur then .exiting (k.env cur).id
    else .destroying (k.env cur).id (k.env slot).id
  return ((k.note event).destroy slot, .answer 0)

/-- Create a child with the caller's registers and heap break and an empty space.  The caller
  gets the child's id; the child, once it runs, finds the result zero. -/
def fork (k : Kernel) : Check (Kernel × Flow) := do
  let cur ← k.caller
  let parent := k.env cur
  let (k, slot) ← k.allocEnv parent.id
  let k := k.updateEnv slot fun child =>
    { child with
      registers := parent.registers
      heapBreak := parent.heapBreak
      pending := some 0 }
  let child := (k.env slot).id
  return (k.note (.forked parent.id child), .answer child.toResult)

/-- Let an environment run, or stop it. -/
def setStatus (k : Kernel) (id : EnvId) (word : UInt32) : Check (Kernel × Flow) := do
  let slot ← k.target id .owned
  let status ← Check.present
    ((Status.ofWord? word).filter fun s => s = .runnable || s = .notRunnable) .invalid
  return (k.updateEnv slot fun e => { e with status }, .answer 0)

/-- Replace the registers of an environment by those that lie in the caller's memory at `va`,
  put into user mode.  They have to be readable by the caller, or the caller is destroyed. -/
def setRegisters (k : Kernel) (id : EnvId) (va : VirtAddr) : Reply :=
  match k.caller with
  | .error e => .refuse k e
  | .ok cur =>
    match k.userRange cur va Registers.byteCount .read with
    | .error fault => k.badPointer cur fault
    | .ok range => .ofCheck k do
      let slot ← k.target id .owned
      let bytes ← k.copyIn cur range
      let registers ← Check.present (Registers.ofBytes? bytes) .invalid
      return (k.updateEnv slot fun e => { e with registers := registers.sanitize }, .answer 0)

/-- Set where page faults of an environment are handled; the address zero means nowhere. -/
def setUpcall (k : Kernel) (id : EnvId) (va : VirtAddr) : Check (Kernel × Flow) := do
  let slot ← k.target id .owned
  let upcall := if va.toNat = 0 then none else some va
  return (k.updateEnv slot fun e => { e with upcall }, .answer 0)

/-- Take over the image that a child was prepared with.  The child gets the caller's space and
  ends with it; the caller goes on with the child's registers. -/
def execCommit (k : Kernel) (id : EnvId) : Check (Kernel × Flow) := do
  let cur ← k.caller
  let slot ← k.target id .owned
  let (caller, image) ← Check.present (k.envs.pair? cur slot) .invalid
  let k := k.updateEnv cur fun e =>
    { e with
      registers := image.registers
      upcall := image.upcall
      heapBreak := image.heapBreak
      space := image.space
      pending := none }
  let k := k.updateEnv slot fun e => { e with space := caller.space }
  let k := (k.activate image.space).note (.execCommitted caller.id image.id)
  return (k.destroy slot, .resume)

end Exokernel.Kernel
