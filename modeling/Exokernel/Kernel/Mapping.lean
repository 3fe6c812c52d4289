/-
  Calls on mappings and on the heap.

  Every address is checked before memory is touched, and every permission goes through the
  allow-list.  A page is shared at most with the rights that its source has.
-/
import Exokernel.Kernel.Reply

namespace Exokernel.Kernel

/-- Where a fresh page is to go: the slot, its space and the permission. -/
def pageTarget (k : Kernel) (id : EnvId) (va : VirtAddr) (permWord : UInt32) :
    Check (Nat × SpaceId × Perm) := do
  let slot ← k.target id .owned
  Check.require va.isUserPage .invalid
  let perm ← Check.ofRights (Perm.request permWord)
  let s ← k.spaceOf slot
  return (slot, s, perm)

/-- Map a fresh zeroed page at `va`, in place of what is mapped there. -/
def pageAlloc (k : Kernel) (id : EnvId) (va : VirtAddr) (permWord : UInt32) : Reply :=
  match k.pageTarget id va permWord with
  | .error e => .refuse k e
  | .ok (slot, s, perm) =>
    match k.memory.mapFresh s va perm with
    | (memory, some e) => ⟨{ k with memory }, .error e.toCallError⟩
    | (memory, none) =>
      ⟨{ k with memory }.note (.pageAllocated (k.env slot).id va perm), .ok (.answer 0)⟩

/-- Map the page that `source` has at `sourceVa` also at `destVa` in `dest`. -/
def pageMap (k : Kernel) (source : EnvId) (sourceVa : VirtAddr) (dest : EnvId)
    (destVa : VirtAddr) (permWord : UInt32) : Check (Kernel × Flow) := do
  let src ← k.target source .owned
  let dst ← k.target dest .owned
  Check.require (sourceVa.isUserPage && destVa.isUserPage) .invalid
  let perm ← Check.ofRights (Perm.request permWord)
  let srcSpace ← k.spaceOf src
  let (frame, sourcePerm) ← Check.present (k.memory.lookup srcSpace sourceVa) .invalid
  Check.ofRights (perm.narrow sourcePerm)
  let dstSpace ← k.spaceOf dst
  let memory ← Check.ofMapping (k.memory.insert dstSpace frame destVa perm)
  let event : Event := .pageMapped (k.env src).id sourceVa (k.env dst).id destVa
  return ({ k with memory }.note event, .answer 0)

/-- Remove what is mapped at `va`, if anything is. -/
def pageUnmap (k : Kernel) (id : EnvId) (va : VirtAddr) : Check (Kernel × Flow) := do
  let slot ← k.target id .owned
  Check.require va.isUserPage .invalid
  let s ← k.spaceOf slot
  return ({ k with memory := k.memory.remove s va }, .answer 0)

/-- Map the page that the kernel shares at `va` in the caller's space.  The caller has to know
  its physical address. -/
def mapKernelPage (k : Kernel) (phys : PhysAddr) (va : VirtAddr) : Check (Kernel × Flow) := do
  let cur ← k.caller
  let frame ← Check.present (k.config.kernelPage.filter fun f => f.addr = phys) .invalid
  Check.require va.isUserPage .invalid
  let s ← k.spaceOf cur
  let memory ← Check.ofMapping (k.memory.insert s frame va .userWrite)
  return ({ k with memory }, .answer 0)

/-! ## The heap -/

/-- Where a heap ends that grows from `heapBreak` by `increment` bytes, rounded up to pages, if
  that is still below the ceiling of user mappings. -/
def heapEnd? (heapBreak : VirtAddr) (increment : UInt32) : Option VirtAddr :=
  ((pageCeil? increment.toNat).bind heapBreak.add?).filter VirtAddr.isUser

/-- Grow the caller's heap, page by page.  If memory runs out on the way, the pages from the old
  break on are unmapped again and the break stays.  A heap beyond the ceiling is fatal. -/
def growHeap (k : Kernel) (increment : UInt32) : Reply :=
  match k.caller with
  | .error e => .refuse k e
  | .ok cur =>
    let id := (k.env cur).id
    let before := (k.env cur).heapBreak
    match heapEnd? before increment with
    | none =>
      ⟨(k.note (.heapOutOfRange id before increment)).destroy cur, .ok .reschedule⟩
    | some after =>
      match k.spaceOf cur with
      | .error e => .refuse k e
      | .ok s =>
        let pages := (after.toNat - before.toNat) / pageSize
        match Memory.mapPages s .userWrite pages before k.memory with
        | (memory, none) =>
          let k := { k with memory }.updateEnv cur fun e => { e with heapBreak := after }
          ⟨k.note (.heapGrown id before after),
            .ok (.answer (UInt32.ofNat after.toNat).toInt32)⟩
        | (memory, some (va, e)) =>
          let mapped := (va.toNat - before.toNat) / pageSize
          let k := { k with memory := Memory.removePages s mapped before memory }
          ⟨k.note (.heapFailed id va e.toCallError), .error e.toCallError⟩

end Exokernel.Kernel
