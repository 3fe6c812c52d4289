/-
  Physical memory and the address spaces in it.

  A space is known by its number.  Numbers of destroyed spaces are used again, lowest first.
  A mapping holds a reference to its frame, so a shared page lives exactly as long as some
  space still maps it.

  An operation that ends in an error and no new memory leaves nothing behind.  Only where a page
  was taken before the error is the memory part of the result: the page has been given back, but
  no longer holds what was in it while it was free.
-/
import Exokernel.Directory
import Exokernel.FramePool
import Exokernel.Error

namespace Exokernel

/-- The number of an address space. -/
structure SpaceId where
  number : UInt32 := 0
  deriving DecidableEq, Inhabited

/-- The frames, the live spaces by number, and the space that is in force. -/
structure Memory where
  pool : FramePool
  spaces : Array (Option Directory) := #[]
  active : Option SpaceId := none

namespace Memory

/-- The address of the first managed frame. -/
def frameBase : PhysAddr := .ofNat 0x400000

/-- Memory of `n` frames without any space. -/
def ofSize (n : Nat) : Memory := { pool := .ofSize frameBase n }

/-- The page directory of a live space. -/
def directory? (m : Memory) (s : SpaceId) : Option Directory :=
  m.spaces.getD s.number.toNat none

/-- How many spaces are live. -/
def liveSpaces (m : Memory) : Nat := m.spaces.countP (·.isSome)

/-- Every reference that a live space holds to a frame, space by space. -/
def references (m : Memory) : List Frame :=
  m.spaces.toList.flatMap fun d => (d.map Directory.references).getD []

/-- What a space maps at the page around `va`: the frame and the permission. -/
def lookup (m : Memory) (s : SpaceId) (va : VirtAddr) : Option (Frame × Perm) :=
  (m.directory? s).bind fun d =>
    (d.find? va).bind fun e => if e.isValid then some (e.frame, e.perm) else none

/-- Put a space in force. -/
def activate (m : Memory) (s : SpaceId) : Memory := { m with active := some s }

/-- The memory in which the number `s` stands for the given directory, or for none. -/
def setDirectory (m : Memory) (s : SpaceId) (d : Option Directory) : Memory :=
  { m with spaces := m.spaces.setIfInBounds s.number.toNat d }

theorem directory?_setDirectory (m : Memory) (s r : SpaceId) (d : Option Directory)
    (h : r.number.toNat < m.spaces.size) :
    (m.setDirectory s d).directory? r = if s = r then d else m.directory? r := by
  simp only [directory?, setDirectory, Array.getD_eq_getD_getElem?,
    Array.getElem?_setIfInBounds]
  by_cases hs : s = r
  · simp [hs, h]
  · have hn : s.number.toNat ≠ r.number.toNat := by
      intro hn
      apply hs
      cases s
      cases r
      simpa [UInt32.toNat_inj] using hn
    simp [hs, hn]

/-! ## Frames -/

/-- Take a zeroed frame that nothing refers to. -/
def allocPage (m : Memory) : Except MappingError (Memory × Frame) :=
  match m.pool.alloc? with
  | none => .error .outOfMemory
  | some (pool, f) => .ok ({ m with pool }, f)

/-- Give back a frame that nothing refers to; any other handle is ignored. -/
def freePage (m : Memory) (f : Frame) : Memory :=
  if m.pool.isAllocated f && m.pool.refCount f == 0 then { m with pool := m.pool.reclaim f }
  else m

/-- Take a frame that the kernel keeps for itself, whoever maps it besides. -/
def reserve (m : Memory) : Except MappingError (Memory × Frame) :=
  match m.pool.allocOwned? with
  | none => .error .outOfMemory
  | some (pool, f) => .ok ({ m with pool }, f)

/-! ## Spaces -/

/-- Create an empty space under the lowest unused number. -/
def createSpace (m : Memory) : Except MappingError (Memory × SpaceId) :=
  match m.pool.allocOwned? with
  | none => .error .outOfMemory
  | some (pool, f) =>
    let root := some (Directory.empty f)
    match m.spaces.findIdx? (·.isNone) with
    | some i =>
      .ok ({ m with pool, spaces := m.spaces.setIfInBounds i root }, ⟨UInt32.ofNat i⟩)
    | none =>
      .ok ({ m with pool, spaces := m.spaces.push root }, ⟨UInt32.ofNat m.spaces.size⟩)

/-- Destroy a live space: every reference that it holds is dropped, and it is no longer in
  force.  A number that names no live space is ignored. -/
def destroySpace (m : Memory) (s : SpaceId) : Memory :=
  match m.directory? s with
  | none => m
  | some d =>
    { m.setDirectory s none with
      pool := m.pool.releaseAll d.references
      active := if m.active = some s then none else m.active }

/-! ## Mappings -/

/-- The table that covers `va`, or a new one in a frame of its own. -/
def tableFor? (pool : FramePool) (d : Directory) (va : VirtAddr) :
    Option (FramePool × PageTable) :=
  match d.table? va with
  | some t => some (pool, t)
  | none =>
    match pool.allocOwned? with
    | none => none
    | some (pool, f) => some (pool, PageTable.empty f)

/-- Map the frame at `va`, in place of what is mapped there.  The new reference is taken before
  the old one is dropped, so a frame that is mapped again where it was is never free in
  between. -/
def insert (m : Memory) (s : SpaceId) (f : Frame) (va : VirtAddr) (perm : Perm) :
    Except MappingError Memory :=
  if !va.isAligned then .error .misaligned
  else if !m.pool.isAllocated f then .error .invalidFrame
  else if !m.pool.canRetain f then .error .outOfMemory
  else
    match m.directory? s with
    | none => .error .noSuchSpace
    | some d =>
      match tableFor? m.pool d va with
      | none => .error .outOfMemory
      | some (pool, t) =>
        match pool.retain? f with
        | none => .error .outOfMemory
        | some pool =>
          let mapped := d.setTable va (t.set va (some (.page f.addr perm)))
          let pool :=
            match t.find? va with
            | some old => (pool.release old.frame).1
            | none => pool
          .ok { m.setDirectory s (some mapped) with pool }

/-- Remove what is mapped at the page around `va`, if anything is. -/
def remove (m : Memory) (s : SpaceId) (va : VirtAddr) : Memory :=
  match m.directory? s with
  | none => m
  | some d =>
    match d.table? va with
    | none => m
    | some t =>
      match t.find? va with
      | none => m
      | some old =>
        { m.setDirectory s (some (d.setTable va (t.set va none))) with
          pool := (m.pool.release old.frame).1 }

/-- Map a fresh zeroed page at `va`.  A page that cannot be mapped is given back. -/
def mapFresh (m : Memory) (s : SpaceId) (va : VirtAddr) (perm : Perm) :
    Memory × Option MappingError :=
  match m.allocPage with
  | .error e => (m, some e)
  | .ok (m, f) =>
    match m.insert s f va perm with
    | .error e => (m.freePage f, some e)
    | .ok m => (m, none)

/-- Remove what is mapped at the `n` pages from `va` on. -/
def removePages (s : SpaceId) : (n : Nat) → VirtAddr → Memory → Memory
  | 0, _, m => m
  | n + 1, va, m => removePages s n (.ofNat (va.toNat + pageSize)) (m.remove s va)

/-- Map fresh zeroed pages, one after the other, at the `n` pages from `va` on.  It
  stops where a page cannot be mapped, and then reports that address and the reason. -/
def mapPages (s : SpaceId) (perm : Perm) :
    (n : Nat) → VirtAddr → Memory → Memory × Option (VirtAddr × MappingError)
  | 0, _, m => (m, none)
  | n + 1, va, m =>
    match m.mapFresh s va perm with
    | (m, some e) => (m, some (va, e))
    | (m, none) => mapPages s perm n (.ofNat (va.toNat + pageSize)) m

end Memory

end Exokernel
