/-
  Entries of a page table.

  An entry is one 32-bit word: the address of a frame in the high 20 bits, its permission in
  the low 12.
-/
import Exokernel.Address
import Exokernel.Perm

namespace Exokernel

/-- One word of a page table. -/
structure PageEntry where
  raw : UInt32 := 0
  deriving DecidableEq, Inhabited

namespace PageEntry

/-- The word without its low 12 bits. -/
def highBits (w : UInt32) : UInt32 := w - w % 4096

/-- The entry that maps the page at `phys` with the permission `perm` and makes it present.
  The address is cut to 32 bits; permission bits beyond the twelve that an entry has room for
  are not masked off and end up in the address. -/
def page (phys : PhysAddr) (perm : Perm) : PageEntry :=
  ⟨highBits phys.word.toUInt32 ||| (perm.union .present).bits⟩

/-- The permission of the mapping. -/
def perm (e : PageEntry) : Perm := ⟨e.raw % 4096⟩

/-- The address of the mapped page. -/
def addr (e : PageEntry) : PhysAddr := ⟨(highBits e.raw).toUInt64⟩

/-- The mapped frame. -/
def frame (e : PageEntry) : Frame := ⟨e.addr⟩

/-- Is the page present? -/
def isValid (e : PageEntry) : Bool := e.perm.contains .present

/-- The written form of an entry. -/
def describe (e : PageEntry) : String :=
  if e.isValid then "PTE(addr=" ++ e.addr.text ++ ", perm=" ++ e.perm.describe ++ ")"
  else "PTE(invalid)"

end PageEntry

end Exokernel
