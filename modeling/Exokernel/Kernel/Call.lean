/-
  System calls from entry to exit.

  A program puts the number of a call into `eax` and the arguments into `edx`, `ecx`, `ebx`,
  `edi` and `esi`, and enters the kernel.  Its registers are saved first, so a call that blocks
  goes on exactly where it was made, with the result in `eax`.

  A failed call answers with the code of its error.  After the call the caller goes on, unless
  it waits, gave way, or exists no more; then the next environment does that can run.
-/
import Exokernel.Kernel.Exchange
import Exokernel.Kernel.Lineage
import Exokernel.Kernel.Mapping
import Exokernel.Kernel.Request
import Exokernel.Kernel.Terminal

namespace Exokernel.Kernel

/-- Carry out a request of the running environment. -/
def perform (k : Kernel) : Request → Reply
  | .putBytes va len => k.putBytes va len
  | .getByte => .ofCheck k (.ok k.getByte)
  | .ownId => .ofCheck k k.ownId
  | .destroyEnv id => .ofCheck k (k.destroyEnv id)
  | .mapKernelPage phys va => .ofCheck k (k.mapKernelPage phys va)
  | .yield => .ofCheck k k.yield
  | .fork => .ofCheck k k.fork
  | .setStatus id status => .ofCheck k (k.setStatus id status)
  | .setRegisters id va => k.setRegisters id va
  | .setUpcall id va => .ofCheck k (k.setUpcall id va)
  | .execCommit id => .ofCheck k (k.execCommit id)
  | .pageAlloc id va perm => k.pageAlloc id va perm
  | .pageMap source sourceVa dest destVa perm =>
    .ofCheck k (k.pageMap source sourceVa dest destVa perm)
  | .pageUnmap id va => .ofCheck k (k.pageUnmap id va)
  | .send id value va perm => .ofCheck k (k.send id value va perm)
  | .receive va => .ofCheck k (k.receive va)
  | .growHeap increment => k.growHeap increment
  | .unknown number => .refuse (k.note (.unknownCall number)) .invalid

/-- Carry out the call with the given number; an error becomes the answer. -/
def dispatch (k : Kernel) (number : UInt32) (args : Args) : Kernel × Flow :=
  let reply := k.perform (.ofWords number args)
  match reply.result with
  | .ok flow => (reply.kernel, flow)
  | .error e => (reply.kernel.note (.callFailed number e), .answer e.code)

/-- What goes on after a call of the environment in `slot`, which still exists. -/
def proceed (k : Kernel) (slot : Nat) : Flow → Kernel × Option Resumption
  | .answer value =>
    let (k, r) := (k.updateEnv slot fun e => { e with pending := some value }).resume slot
    (k, some r)
  | .resume =>
    let (k, r) := k.resume slot
    (k, some r)
  | .reschedule => k.reschedule

/-- Run one system call of the running environment, and say what goes on afterwards. -/
def call (k : Kernel) (number : UInt32) (args : Args) : Kernel × Option Resumption :=
  match k.current with
  | none => k.reschedule
  | some slot =>
    let caller := (k.env slot).id
    let (k, flow) := k.dispatch number args
    if k.envs.resolve caller = some slot then k.proceed slot flow else k.reschedule

/-- Enter the kernel with a number, arguments and the registers to save. -/
def enter (k : Kernel) (number : UInt32) (args : Args) (r : Registers) :
    Kernel × Option Resumption :=
  (k.capture r).call number args

/-- Enter the kernel with number and arguments in the registers. -/
def trap (k : Kernel) (r : Registers) : Kernel × Option Resumption :=
  k.enter r.eax #v[r.edx, r.ecx, r.ebx, r.edi, r.esi] r

end Exokernel.Kernel
