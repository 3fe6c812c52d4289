/-
  Requests: what a program can ask the kernel for.

  A program passes a number and five words.  `Request.ofWords` reads them: the number selects
  the call and the words that the call does not need are ignored.  Words that are addresses or
  lengths are widened with zeros.
-/
import Exokernel.EnvId
import Exokernel.Address

namespace Exokernel

/-- The five argument words of a system call. -/
abbrev Args : Type := Vector UInt32 5

/-- A system call with its arguments. -/
inductive Request where
  | putBytes (va : VirtAddr) (len : Nat)
  | getByte
  | ownId
  | destroyEnv (id : EnvId)
  | mapKernelPage (phys : PhysAddr) (va : VirtAddr)
  | yield
  | fork
  | setStatus (id : EnvId) (status : UInt32)
  | setRegisters (id : EnvId) (va : VirtAddr)
  | setUpcall (id : EnvId) (va : VirtAddr)
  | execCommit (id : EnvId)
  | pageAlloc (id : EnvId) (va : VirtAddr) (perm : UInt32)
  | pageMap (source : EnvId) (sourceVa : VirtAddr) (dest : EnvId) (destVa : VirtAddr)
      (perm : UInt32)
  | pageUnmap (id : EnvId) (va : VirtAddr)
  | send (id : EnvId) (value : UInt32) (va : VirtAddr) (perm : UInt32)
  | receive (va : VirtAddr)
  | growHeap (increment : UInt32)
  | unknown (number : UInt32)
  deriving DecidableEq

namespace Request

/-- The virtual address in a word. -/
def virt (w : UInt32) : VirtAddr := .ofNat w.toNat

/-- The physical address in a word. -/
def phys (w : UInt32) : PhysAddr := .ofNat w.toNat

/-- The request that a number and five words make. -/
def ofWords (number : UInt32) (a : Args) : Request :=
  match number.toNat with
  | 0 => .putBytes (virt a[0]) a[1].toNat
  | 1 => .getByte
  | 2 => .ownId
  | 3 => .destroyEnv ⟨a[0]⟩
  | 4 => .mapKernelPage (phys a[0]) (virt a[1])
  | 5 => .yield
  | 6 => .fork
  | 7 => .setStatus ⟨a[0]⟩ a[1]
  | 8 => .setRegisters ⟨a[0]⟩ (virt a[1])
  | 9 => .setUpcall ⟨a[0]⟩ (virt a[1])
  | 10 => .execCommit ⟨a[0]⟩
  | 11 => .pageAlloc ⟨a[0]⟩ (virt a[1]) a[2]
  | 12 => .pageMap ⟨a[0]⟩ (virt a[1]) ⟨a[2]⟩ (virt a[3]) a[4]
  | 13 => .pageUnmap ⟨a[0]⟩ (virt a[1])
  | 14 => .send ⟨a[0]⟩ a[1] (virt a[2]) a[3]
  | 15 => .receive (virt a[0])
  | 16 => .growHeap a[0]
  | _ => .unknown number

end Request

end Exokernel
