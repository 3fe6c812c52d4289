/-
  Calls on the console.
-/
import Exokernel.Kernel.Reply

namespace Exokernel.Kernel

/-- Write the `len` bytes at `va` to the console.  All of them have to be readable by the
  caller, or the caller is destroyed and nothing is written. -/
def putBytes (k : Kernel) (va : VirtAddr) (len : Nat) : Reply :=
  match k.caller with
  | .error e => .refuse k e
  | .ok cur =>
    match k.userRange cur va len .read with
    | .error fault => k.badPointer cur fault
    | .ok range =>
      match k.copyIn cur range with
      | .error e => .refuse k e
      | .ok bytes => ⟨{ k with console := k.console.write bytes }, .ok (.answer 0)⟩

/-- The next byte of input, or zero if none is waiting. -/
def getByte (k : Kernel) : Kernel × Flow :=
  match k.console.read with
  | (some b, console) => ({ k with console }, .answer (Int32.ofNat b.toNat))
  | (none, console) => ({ k with console }, .answer 0)

end Exokernel.Kernel
