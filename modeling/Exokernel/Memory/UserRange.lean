/-
  Ranges that a program passes to the kernel.

  A range is good if every page it touches lies below `userLimit` and is mapped with the
  permission that the access needs.  Otherwise the check names the first address of the range
  that fails.  The empty range is always good.
-/
import Exokernel.Memory.Copy

namespace Exokernel

/-- What the kernel is going to do with a range. -/
inductive Access where
  | read
  | write
  deriving DecidableEq

/-- The permission that every page of the range needs. -/
def Access.required : Access → Perm
  | .read => .userRead
  | .write => .userWrite

/-- A range of addresses. -/
structure UserRange where
  va : VirtAddr
  len : Nat

namespace Memory

/-- May the kernel go on to this page? -/
def grants (m : Memory) (s : SpaceId) (need : Perm) (page : VirtAddr) : Bool :=
  decide (page.toNat < userLimit) &&
    match m.lookup s page with
    | some (_, perm) => perm.contains need
    | none => false

/-- The first of the `n` pages from `page` on that is not granted, as an address of the range
  that starts at `va`: in its first page a range is at fault from `va` on, not from the start
  of the page. -/
def firstFault (m : Memory) (s : SpaceId) (need : Perm) (va : VirtAddr) :
    (n : Nat) → (page : VirtAddr) → Option VirtAddr
  | 0, _ => none
  | n + 1, page =>
    if m.grants s need page then
      (page.add? pageSize).elim (some (page.max va)) (m.firstFault s need va n)
    else some (page.max va)

/-- Check the `len` bytes at `va`.  A range whose end, rounded up to a page, is no address
  fails at `va`. -/
def checkRange (m : Memory) (s : SpaceId) (va : VirtAddr) (len : Nat) (access : Access) :
    Except VirtAddr UserRange :=
  if len = 0 then .ok ⟨va, len⟩
  else
    match (va.add? len).bind VirtAddr.alignUp? with
    | none => .error va
    | some stop =>
      let start := va.alignDown
      match m.firstFault s access.required va ((stop.toNat - start.toNat) / pageSize) start with
      | some fault => .error fault
      | none => .ok ⟨va, len⟩

/-- The bytes of a range. -/
def copyIn (m : Memory) (s : SpaceId) (r : UserRange) : Except MappingError (Array UInt8) :=
  (m.readBytes s r.va r.len).complete

end Memory

end Exokernel
