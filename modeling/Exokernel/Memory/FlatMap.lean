/-
  Memory without its levels.

  Directories, tables and frames are how memory keeps what spaces map.  What is kept is much
  simpler: for each live space and each page a frame with a permission, or nothing.  That is a flat
  map, and it says all that can be looked up.

  `Command` is what can be asked of memory directly, with any arguments.  A page is mapped step by
  step here (`insertInPlace`), so that what a failure leaves behind is seen.  A flat map follows the
  commands and the answers to them, and never sees a directory, a table or a count.  `serve` lets
  memory and a flat map go through the same commands side by side.
-/
import Mathlib.Logic.Function.Basic
import Exokernel.Memory

namespace Exokernel

/-- The number of the page around the address, as far as a directory can tell: 20 bits. -/
def VirtAddr.pageNumber (a : VirtAddr) : Fin (tableSize * tableSize) :=
  Fin.ofNat (tableSize * tableSize) (a.toNat / pageSize)

/-- What each live space maps at each page. -/
abbrev FlatMap : Type := SpaceId → Option (Fin (tableSize * tableSize) → Option (Frame × Perm))

namespace FlatMap

/-- No space is live. -/
def empty : FlatMap := fun _ => none

/-- What a space maps at the page around the address. -/
def lookup (M : FlatMap) (s : SpaceId) (va : VirtAddr) : Option (Frame × Perm) :=
  (M s).bind fun pages => pages va.pageNumber

/-- One entry of a live space is set or cleared. -/
def set (M : FlatMap) (s : SpaceId) (va : VirtAddr) (entry : Option (Frame × Perm)) : FlatMap :=
  Function.update M s ((M s).map fun pages => Function.update pages va.pageNumber entry)

/-- A space comes into being without entries. -/
def create (M : FlatMap) (s : SpaceId) : FlatMap := Function.update M s (some fun _ => none)

/-- A space ends with all its entries. -/
def destroy (M : FlatMap) (s : SpaceId) : FlatMap := Function.update M s none

end FlatMap

namespace Memory

/-- What can be asked of memory. -/
inductive Command where
  | createSpace
  | destroySpace (s : SpaceId)
  | allocPage
  | freePage (f : Frame)
  | insert (s : SpaceId) (f : Frame) (va : VirtAddr) (perm : Perm)
  | remove (s : SpaceId) (va : VirtAddr)
  deriving DecidableEq

/-- The permission of the command fits into an entry. -/
def Command.Fits : Command → Prop
  | .insert _ _ _ perm => perm.bits.toNat ≤ 0xFFF
  | _ => True

instance : (c : Command) → Decidable c.Fits
  | .insert _ _ _ perm => inferInstanceAs (Decidable (perm.bits.toNat ≤ 0xFFF))
  | .createSpace | .destroySpace _ | .allocPage | .freePage _ | .remove _ _ =>
    inferInstanceAs (Decidable True)

/-- What a command that succeeds yields. -/
inductive Yield where
  | space (s : SpaceId)
  | frame (f : Frame)
  | done
  deriving DecidableEq

/-- Map the frame at `va`, each step on the memory that the last one has left: a table that is
  missing is added first, and nothing takes it away if a later step fails. -/
def insertInPlace (m : Memory) (s : SpaceId) (f : Frame) (va : VirtAddr) (perm : Perm) :
    Memory × Except MappingError Yield :=
  if !va.isAligned then (m, .error .misaligned)
  else if !m.pool.isAllocated f then (m, .error .invalidFrame)
  else if !m.pool.canRetain f then (m, .error .outOfMemory)
  else
    match m.directory? s with
    | none => (m, .error .noSuchSpace)
    | some d =>
      match tableFor? m.pool d va with
      | none => (m, .error .outOfMemory)
      | some (pool, t) =>
        let tabled := d.setTable va t
        let added := { m.setDirectory s (some tabled) with pool }
        match added.pool.retain? f with
        | none => (added, .error .outOfMemory)
        | some pool =>
          let mapped := tabled.setTable va (t.set va (some (.page f.addr perm)))
          let entered := { added.setDirectory s (some mapped) with pool }
          match t.find? va with
          | some old => ({ entered with pool := (pool.release old.frame).1 }, .ok .done)
          | none => (entered, .ok .done)

/-- Carry out a command. -/
def carryOut (m : Memory) : Command → Memory × Except MappingError Yield
  | .createSpace =>
    match m.createSpace with
    | .ok (m, s) => (m, .ok (.space s))
    | .error e => (m, .error e)
  | .destroySpace s => (m.destroySpace s, .ok .done)
  | .allocPage =>
    match m.allocPage with
    | .ok (m, f) => (m, .ok (.frame f))
    | .error e => (m, .error e)
  | .freePage f => (m.freePage f, .ok .done)
  | .insert s f va perm => m.insertInPlace s f va perm
  | .remove s va => (m.remove s va, .ok .done)

end Memory

/-- The flat map after a command with the given answer. -/
def FlatMap.follow (M : FlatMap) : Memory.Command → Except MappingError Memory.Yield → FlatMap
  | .createSpace, .ok (.space s) => M.create s
  | .destroySpace s, .ok _ => M.destroy s
  | .insert s f va perm, .ok _ => M.set s va (some (f, perm.union .present))
  | .remove s va, .ok _ => M.set s va none
  | _, _ => M

/-- Memory and a flat map after a series of commands. -/
def Memory.serve : Memory → FlatMap → List Memory.Command → Memory × FlatMap
  | m, M, [] => (m, M)
  | m, M, c :: rest => (m.carryOut c).1.serve (M.follow c (m.carryOut c).2) rest

end Exokernel
