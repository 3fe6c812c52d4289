/-
  The contents of a page: 4096 bytes.
-/
import Exokernel.Address

namespace Exokernel

/-- The bytes of one page. -/
abbrev Page : Type := Vector UInt8 pageSize

namespace Page

/-- The page that holds zeros only. -/
def zero : Page := Vector.replicate pageSize 0

/-- The `len` bytes from `off` on, fewer if the page ends before. -/
def read (p : Page) (off len : Nat) : Array UInt8 :=
  p.toArray.extract off (off + len)

/-- The page with `bytes` stored from `off` on; what would lie past its end is dropped. -/
def write (p : Page) (off : Nat) (bytes : Array UInt8) : Page :=
  Vector.ofFn fun i =>
    if off ≤ i.val ∧ i.val < off + bytes.size then bytes.getD (i.val - off) 0 else p[i.val]

@[simp] theorem getElem_zero {i : Nat} (h : i < pageSize) : zero[i] = 0 := by
  simp [zero]

theorem getElem_write (p : Page) (off : Nat) (bytes : Array UInt8) {i : Nat}
    (h : i < pageSize) :
    (p.write off bytes)[i] =
      if off ≤ i ∧ i < off + bytes.size then bytes.getD (i - off) 0 else p[i] := by
  simp [write]

theorem size_read (p : Page) (off len : Nat) :
    (p.read off len).size = min (off + len) pageSize - off := by
  simp [read]

/-- Reading back what was written gives it, as long as it fits in the page. -/
theorem read_write (p : Page) (off : Nat) (bytes : Array UInt8)
    (h : off + bytes.size ≤ pageSize) : (p.write off bytes).read off bytes.size = bytes := by
  apply Array.ext
  · rw [size_read]
    omega
  · intro i hi hi'
    have hin : off + i < pageSize := by omega
    have := getElem_write p off bytes hin
    simp only [read, Array.getElem_extract, Vector.getElem_toArray] at *
    rw [this, if_pos (by omega)]
    simp [hi']

end Page

end Exokernel
