/-
  Virtual and physical addresses.

  Addresses are 64-bit words.  Every operation is stated on the number `toNat` that the word
  holds, and a sum that does not fit in 64 bits is `none` instead of wrapping, so arithmetic on
  addresses is arithmetic on numbers.

  A virtual address selects a page in two steps: bits 22 to 31 pick an entry of the page
  directory, bits 12 to 21 an entry of the page table found there.  Bits above 31 select
  nothing: two addresses that are 4 GiB apart name the same page.

  The user part of an address space, from the bottom:

      0          user mappings, the heap grows up towards `userTop`
      userTop    shared by the kernel, readable by the user
      userLimit  out of bounds for the user
-/
import Exokernel.Text.Hex

namespace Exokernel

/-- Bytes in a page. -/
abbrev pageSize : Nat := 4096

/-- Entries in a page directory and in a page table. -/
abbrev tableSize : Nat := 1024

/-- Bytes covered by one page table. -/
abbrev tableSpan : Nat := pageSize * tableSize

/-- The ceiling of user-controlled mappings. -/
def userTop : Nat := 0xEEC00000

/-- The ceiling of what a user may name at all. -/
def userLimit : Nat := 0xEF800000

/-- The largest multiple of the page size that is not above `n`. -/
def pageFloor (n : Nat) : Nat :=
  n / pageSize * pageSize

/-- The least multiple of the page size that is not below `n`, provided that `n` plus the
  last offset in a page still fits in 64 bits. -/
def pageCeil? (n : Nat) : Option Nat :=
  if n + (pageSize - 1) < 0x10000000000000000 then some (pageFloor (n + (pageSize - 1))) else none

/-! ## Virtual addresses -/

/-- An address as a program sees it. -/
structure VirtAddr where
  word : UInt64 := 0
  deriving DecidableEq, Inhabited

namespace VirtAddr

/-- The number that the address is. -/
def toNat (a : VirtAddr) : Nat := a.word.toNat

/-- The address `n`; a number of more than 64 bits loses its high bits. -/
def ofNat (n : Nat) : VirtAddr := ⟨UInt64.ofNat n⟩

theorem toNat_lt (a : VirtAddr) : a.toNat < 0x10000000000000000 := a.word.toNat_lt

theorem toNat_ofNat {n : Nat} (h : n < 0x10000000000000000) : (ofNat n).toNat = n := by
  simp only [toNat, ofNat, UInt64.toNat_ofNat']
  exact Nat.mod_eq_of_lt h

@[simp] theorem ofNat_toNat (a : VirtAddr) : ofNat a.toNat = a := by
  simp [toNat, ofNat]

theorem toNat_inj {a b : VirtAddr} : a.toNat = b.toNat ↔ a = b := by
  cases a
  cases b
  simp [toNat, UInt64.toNat_inj]

/-- Does a page start here? -/
def isAligned (a : VirtAddr) : Bool := a.toNat % pageSize == 0

/-- The start of the page around the address. -/
def alignDown (a : VirtAddr) : VirtAddr := ofNat (pageFloor a.toNat)

/-- The first start of a page at or after the address, if rounding up does not overflow. -/
def alignUp? (a : VirtAddr) : Option VirtAddr := (pageCeil? a.toNat).map ofNat

/-- The address `n` bytes on, if there is one. -/
def add? (a : VirtAddr) (n : Nat) : Option VirtAddr :=
  if a.toNat + n < 0x10000000000000000 then some (ofNat (a.toNat + n)) else none

/-- Which entry of the page directory covers the address. -/
def dirIndex (a : VirtAddr) : Fin tableSize := Fin.ofNat tableSize (a.toNat / tableSpan)

/-- Which entry of its page table covers the address. -/
def tableIndex (a : VirtAddr) : Fin tableSize := Fin.ofNat tableSize (a.toNat / pageSize)

/-- The position of the address in its page. -/
def offset (a : VirtAddr) : Nat := a.toNat % pageSize

theorem offset_lt (a : VirtAddr) : a.offset < pageSize := Nat.mod_lt _ (by decide)

/-- Below the ceiling of user mappings? -/
def isUser (a : VirtAddr) : Bool := decide (a.toNat < userTop)

/-- The start of a page that the user may map? -/
def isUserPage (a : VirtAddr) : Bool := a.isUser && a.isAligned

/-- The higher of two addresses. -/
def max (a b : VirtAddr) : VirtAddr := if a.toNat < b.toNat then b else a

/-- The written form of the address. -/
def text (a : VirtAddr) : String := Text.hexAddress a.toNat

/-- The written form that names the kind of address. -/
def describe (a : VirtAddr) : String := "VirtAddr(" ++ a.text ++ ")"

end VirtAddr

/-! ## Physical addresses -/

/-- An address on the memory bus. -/
structure PhysAddr where
  word : UInt64 := 0
  deriving DecidableEq, Inhabited

namespace PhysAddr

/-- The number that the address is. -/
def toNat (a : PhysAddr) : Nat := a.word.toNat

/-- The address `n`; a number of more than 64 bits loses its high bits. -/
def ofNat (n : Nat) : PhysAddr := ⟨UInt64.ofNat n⟩

theorem toNat_lt (a : PhysAddr) : a.toNat < 0x10000000000000000 := a.word.toNat_lt

theorem toNat_ofNat {n : Nat} (h : n < 0x10000000000000000) : (ofNat n).toNat = n := by
  simp only [toNat, ofNat, UInt64.toNat_ofNat']
  exact Nat.mod_eq_of_lt h

@[simp] theorem ofNat_toNat (a : PhysAddr) : ofNat a.toNat = a := by
  simp [toNat, ofNat]

theorem toNat_inj {a b : PhysAddr} : a.toNat = b.toNat ↔ a = b := by
  cases a
  cases b
  simp [toNat, UInt64.toNat_inj]

/-- Does a frame start here? -/
def isAligned (a : PhysAddr) : Bool := a.toNat % pageSize == 0

/-- The written form of the address. -/
def text (a : PhysAddr) : String := Text.hexAddress a.toNat

/-- The written form that names the kind of address. -/
def describe (a : PhysAddr) : String := "PhysAddr(" ++ a.text ++ ")"

end PhysAddr

/-! ## Frames -/

/-- A handle on one physical page: the address at which it starts.  Having the handle does not
  keep the page in use; references counted by the pool do. -/
structure Frame where
  addr : PhysAddr := {}
  deriving DecidableEq, Inhabited

/-- The written form that names a frame. -/
def Frame.describe (f : Frame) : String := "Frame(" ++ f.addr.describe ++ ")"

end Exokernel
