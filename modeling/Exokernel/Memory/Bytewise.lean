/-
  Copies, one byte at a time.

  A copy moves whole pages where it can.  What it should come to is said here without pages: every
  byte of the range is looked up on its own, read or stored on its own, in increasing order.

  `Step` is all that can be done with memory, by the kernel and by the programs that run on it, with
  any arguments.
-/
import Exokernel.Memory.Copy
import Exokernel.Memory.FlatMap

namespace Exokernel

/-- The byte at an offset of a frame, whether the frame is in use or not. -/
def FramePool.byteIn? (p : FramePool) (f : Frame) (off : Nat) : Option UInt8 :=
  (p.index? f).bind fun i => (p.cell i).page[off]?

namespace Memory

/-! ## A byte of a range -/

/-- Where byte number `i` of the range at `va` lies: in which frame, and at which offset. -/
def place? (m : Memory) (s : SpaceId) (va : VirtAddr) (i : Nat) : Option (Frame × Nat) :=
  (va.add? i).bind fun a => (m.lookup s a).map fun entry => (entry.1, a.offset)

/-- How many bytes of a range of `len` come before the first that lies nowhere. -/
def reach (m : Memory) (s : SpaceId) (va : VirtAddr) (len : Nat) : Nat :=
  (List.range len).findIdx fun i => (m.place? s va i).isNone

/-- Byte number `i` of the range at `va`. -/
def loadByte? (m : Memory) (s : SpaceId) (va : VirtAddr) (i : Nat) : Option UInt8 :=
  (m.place? s va i).bind fun place => m.pool.byteIn? place.1 place.2

/-- Store a byte as number `i` of the range at `va`. -/
def storeByte (m : Memory) (s : SpaceId) (va : VirtAddr) (i : Nat) (b : UInt8) : Memory :=
  match (m.place? s va i).bind fun place => m.pool.write? place.1 place.2 #[b] with
  | some pool => { m with pool }
  | none => m

/-- Store the first `n` bytes of `data` in the range at `va`, one after the other. -/
def storeEach (m : Memory) (s : SpaceId) (va : VirtAddr) (data : Array UInt8) : Nat → Memory
  | 0 => m
  | n + 1 => (m.storeEach s va data n).storeByte s va n (data.getD n 0)

/-! ## What is done with memory -/

/-- One thing that is done with memory. -/
inductive Step where
  | command (c : Command)
  /-- The kernel keeps a page for itself. -/
  | reserve
  | activate (s : SpaceId)
  | write (s : SpaceId) (va : VirtAddr) (data : Array UInt8)
  /-- Bytes are stored through the handle of a frame. -/
  | poke (f : Frame) (off : Nat) (bytes : Array UInt8)
  deriving DecidableEq

/-- The permission in the step fits into an entry. -/
def Step.Fits : Step → Prop
  | .command c => c.Fits
  | .reserve | .activate _ | .write _ _ _ | .poke _ _ _ => True

instance : (x : Step) → Decidable x.Fits
  | .command c => inferInstanceAs (Decidable c.Fits)
  | .reserve | .activate _ | .write _ _ _ | .poke _ _ _ => inferInstanceAs (Decidable True)

/-- Memory after a step; one that fails leaves what it leaves. -/
def step (m : Memory) : Step → Memory
  | .command c => (m.carryOut c).1
  | .reserve =>
    match m.reserve with
    | .ok (m', _) => m'
    | .error _ => m
  | .activate s => m.activate s
  | .write s va data => (m.writeBytes s va data).1
  | .poke f off bytes =>
    match m.pool.write? f off bytes with
    | some pool => { m with pool }
    | none => m

/-- Memory after a series of steps. -/
def steps (m : Memory) (l : List Step) : Memory := l.foldl step m

end Memory

end Exokernel
