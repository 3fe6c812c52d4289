/-
  Copying bytes between the kernel and an address space.

  A copy goes page by page: each step finds the page around the next address and moves what the
  range has in it.  It stops at the first address that is not mapped or does not exist; what
  was moved before stays moved.  Permissions play no part: whoever copies for a program checks
  its range first.
-/
import Exokernel.Memory

namespace Exokernel.Memory

/-- The frame behind `va`, with its contents. -/
def pageAt (m : Memory) (s : SpaceId) (va : VirtAddr) : Except MappingError (Frame × Page) :=
  match m.lookup s va with
  | none => .error .notMapped
  | some (f, _) =>
    match m.pool.page? f with
    | none => .error .invalidFrame
    | some page => .ok (f, page)

/-- How many of the next `left` bytes lie in the page around `va`. -/
def chunk (va : VirtAddr) (left : Nat) : Nat := min (pageSize - va.offset) left

theorem chunk_pos (va : VirtAddr) {left : Nat} (h : 0 < left) : 0 < chunk va left := by
  have := va.offset_lt
  simp only [chunk]
  omega

theorem chunk_le (va : VirtAddr) (left : Nat) : chunk va left ≤ left := Nat.min_le_right _ _

/-! ## Reading -/

/-- What a read yields: the bytes read before it ended, and what stopped it, if anything. -/
structure Reading where
  bytes : Array UInt8
  stopped : Option MappingError

/-- A buffer of `len` zeros after the read. -/
def Reading.buffer (r : Reading) (len : Nat) : Array UInt8 :=
  r.bytes ++ Array.replicate (len - r.bytes.size) 0

/-- All the bytes, or the error. -/
def Reading.complete (r : Reading) : Except MappingError (Array UInt8) :=
  match r.stopped with
  | none => .ok r.bytes
  | some e => .error e

/-- Read the bytes `done`, `done + 1`, … up to `len` of the range at `va`; `bytes` are those
  before. -/
def readFrom (m : Memory) (s : SpaceId) (va : VirtAddr) (len done : Nat)
    (bytes : Array UInt8) : Reading :=
  if done < len then
    match va.add? done with
    | none => ⟨bytes, some .notMapped⟩
    | some cur =>
      match m.pageAt s cur with
      | .error e => ⟨bytes, some e⟩
      | .ok (_, page) =>
        let n := chunk cur (len - done)
        m.readFrom s va len (done + n) (bytes ++ page.read cur.offset n)
  else ⟨bytes, none⟩
termination_by len - done
decreasing_by
  have : 0 < chunk cur (len - done) := chunk_pos cur (by omega)
  omega

/-- Read `len` bytes at `va`. -/
def readBytes (m : Memory) (s : SpaceId) (va : VirtAddr) (len : Nat) : Reading :=
  m.readFrom s va len 0 #[]

/-! ## Writing -/

/-- Store the bytes `done`, `done + 1`, … of `data` in the range at `va`. -/
def writeFrom (m : Memory) (s : SpaceId) (va : VirtAddr) (data : Array UInt8) (done : Nat) :
    Memory × Option MappingError :=
  if done < data.size then
    match va.add? done with
    | none => (m, some .notMapped)
    | some cur =>
      match m.pageAt s cur with
      | .error e => (m, some e)
      | .ok (f, _) =>
        let n := chunk cur (data.size - done)
        match m.pool.write? f cur.offset (data.extract done (done + n)) with
        | none => (m, some .invalidFrame)
        | some pool => { m with pool }.writeFrom s va data (done + n)
  else (m, none)
termination_by data.size - done
decreasing_by
  have : 0 < chunk cur (data.size - done) := chunk_pos cur (by omega)
  omega

/-- Store `data` at `va`, and say what stopped it, if anything. -/
def writeBytes (m : Memory) (s : SpaceId) (va : VirtAddr) (data : Array UInt8) :
    Memory × Option MappingError :=
  m.writeFrom s va data 0

end Exokernel.Memory
