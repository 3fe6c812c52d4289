/-
  What a system call amounts to.

  Most calls check everything first and change the kernel only when nothing can fail any more.
  They are functions to `Check (Kernel × Flow)`: an error comes without a new kernel, so a call
  that fails has changed nothing.  `Reply.ofCheck` turns that into the general form, in which a
  failed call comes with the kernel that it leaves behind.  Only bad pointers, a page that cannot
  be mapped, a heap that cannot grow and unknown numbers need the general form.
-/
import Exokernel.Kernel.Teardown

namespace Exokernel

/-- What becomes of the caller. -/
inductive Flow where
  /-- It goes on with this result. -/
  | answer (value : Int32)
  /-- It goes on as its record says. -/
  | resume
  /-- It does not go on now: it waits, gave way, or has ended. -/
  | reschedule
  deriving DecidableEq

/-- The kernel after a call, and what becomes of the caller or why the call failed. -/
structure Reply where
  kernel : Kernel
  result : Check Flow

namespace Reply

/-- A failed call that changed nothing. -/
def refuse (k : Kernel) (e : CallError) : Reply := ⟨k, .error e⟩

/-- The reply of a call that changes the kernel only if it succeeds. -/
def ofCheck (k : Kernel) (c : Check (Kernel × Flow)) : Reply :=
  match c with
  | .ok (k, flow) => ⟨k, .ok flow⟩
  | .error e => refuse k e

end Reply

/-- The caller passed a pointer that is bad at `fault`, and is destroyed for it. -/
def Kernel.badPointer (k : Kernel) (slot : Nat) (fault : VirtAddr) : Reply :=
  ⟨(k.note (.badPointer (k.env slot).id fault)).destroy slot, .error .fault⟩

end Exokernel
