/-
  The pool of physical frames.

  The pool manages a run of frames that starts at a base address.  A frame is free or in use;
  one in use has a count of references and 4096 bytes of contents.

    * Allocation takes the free frame with the lowest address.  It starts with zeros and a count
      of zero, so nothing that an earlier user stored can be seen.
    * Dropping the last reference makes the frame free again.  A frame that never had a
      reference is given back with `free`, which refuses every handle that it should not get.
    * A handle that the pool does not manage, or whose frame is free, has no effect anywhere.
    * The pool itself frees through `reclaim`.  There a refusal would be fatal, so the pool keeps
      the first one as `misuse`.

  What is known of the frames lies in three parallel arrays, the first of them a packed bitmap.
  They are read and changed through `cell` and `update`, which keep them in step.
-/
import Exokernel.Bitmap
import Exokernel.Page

namespace Exokernel

/-- What the pool knows of one frame. -/
structure Cell where
  inUse : Bool := false
  refs : UInt16 := 0
  page : Page := .zero
  deriving Inhabited

/-- The record with one reference less; a count of zero stays at zero. -/
def Cell.drop (c : Cell) : Cell := { c with refs := if c.refs = 0 then 0 else c.refs - 1 }

/-- Why a frame cannot be freed. -/
inductive Misuse where
  /-- The pool does not manage the frame. -/
  | unmanaged (f : Frame)
  /-- The frame is free already. -/
  | alreadyFree (f : Frame)
  /-- The frame still has references. -/
  | referenced (count : UInt16) (f : Frame)

/-- The text that reports a misuse. -/
def Misuse.message : Misuse → String
  | .unmanaged f => "Attempted to free frame outside managed range: " ++ f.describe
  | .alreadyFree f => "Double free detected for frame: " ++ f.describe
  | .referenced n f =>
    "Freeing frame still referenced " ++ toString n.toNat ++ " times: " ++ f.describe

/-- `size` frames from `base` upwards, and how many of them are free. -/
structure FramePool where
  base : PhysAddr
  size : Nat
  /-- Which frames are in use. -/
  inUse : Bitmap size
  /-- How many references each frame has. -/
  refs : Vector UInt16 size
  /-- What each frame holds. -/
  pages : Vector Page size
  freeCount : Nat
  /-- The first fatal attempt to free a frame. -/
  misuse : Option Misuse := none

/-- The most references that a frame can have. -/
def maxRefs : UInt16 := 65535

namespace FramePool

/-- A pool of `n` free frames. -/
def ofSize (base : PhysAddr) (n : Nat) : FramePool :=
  { base, size := n, inUse := .clear n, refs := .replicate n 0, pages := .replicate n .zero,
    freeCount := n }

/-! ## Looking at a frame -/

/-- The handle of frame number `i`. -/
def frameAt (p : FramePool) (i : Nat) : Frame :=
  ⟨.ofNat (p.base.toNat + i * pageSize)⟩

/-- How many whole frames lie between the base and a handle. -/
def distance (p : FramePool) (f : Frame) : Nat :=
  (f.addr.toNat - p.base.toNat) / pageSize

/-- Does the pool manage the frame? -/
def manages (p : FramePool) (f : Frame) : Bool :=
  f.addr.isAligned && decide (p.base.toNat ≤ f.addr.toNat) && decide (p.distance f < p.size)

/-- The number of the frame that a handle names, if the pool manages it. -/
def index? (p : FramePool) (f : Frame) : Option Nat :=
  if p.manages f then some (p.distance f) else none

/-- The record of frame number `i`; a number out of range reads as a free frame. -/
def cell (p : FramePool) (i : Nat) : Cell :=
  if h : i < p.size then { inUse := p.inUse.get i, refs := p.refs[i], page := p.pages[i] } else {}

/-- The number of the frame that a handle names, if that frame is in use. -/
def usedIndex? (p : FramePool) (f : Frame) : Option Nat :=
  (p.index? f).filter fun i => (p.cell i).inUse

/-- Is the frame in use? -/
def isAllocated (p : FramePool) (f : Frame) : Bool := (p.usedIndex? f).isSome

/-- How many references the frame has; none if the pool does not manage it. -/
def refCount (p : FramePool) (f : Frame) : UInt16 :=
  match p.index? f with
  | some i => (p.cell i).refs
  | none => 0

/-- The contents of a frame in use. -/
def page? (p : FramePool) (f : Frame) : Option Page :=
  (p.usedIndex? f).map fun i => (p.cell i).page

/-- Is the frame in use, with room for one more reference? -/
def canRetain (p : FramePool) (f : Frame) : Bool :=
  match p.usedIndex? f with
  | some i => decide ((p.cell i).refs < maxRefs)
  | none => false

/-! ## Changing a frame -/

/-- The pool with the record of frame number `i` changed. -/
def update (p : FramePool) (i : Nat) (change : Cell → Cell) : FramePool :=
  let c := change (p.cell i)
  { p with
    inUse := p.inUse.set i c.inUse
    refs := p.refs.setIfInBounds i c.refs
    pages := p.pages.setIfInBounds i c.page }

/-- The number of the first free frame. -/
def firstFree? (p : FramePool) : Option Nat :=
  (List.range p.size).find? fun i => !p.inUse.get i

/-- Take the first free frame, zeroed and without references. -/
def alloc? (p : FramePool) : Option (FramePool × Frame) :=
  if p.freeCount = 0 then none
  else
    match p.firstFree? with
    | none => none
    | some i =>
      let f := p.frameAt i
      some ({ p.update i (fun _ => { inUse := true }) with freeCount := p.freeCount - 1 }, f)

/-- Make frame number `i` free. -/
def vacate (p : FramePool) (i : Nat) : FramePool :=
  { p.update i (fun c => { c with inUse := false, refs := 0 }) with
    freeCount := p.freeCount + 1 }

/-- Give back a frame in use that has no references. -/
def free (p : FramePool) (f : Frame) : Except Misuse FramePool :=
  match p.index? f with
  | none => .error (.unmanaged f)
  | some i =>
    if !(p.cell i).inUse then .error (.alreadyFree f)
    else if (p.cell i).refs != 0 then .error (.referenced (p.cell i).refs f)
    else .ok (p.vacate i)

/-- Free a frame where nothing may go wrong any more. -/
def reclaim (p : FramePool) (f : Frame) : FramePool :=
  match p.free f with
  | .ok p => p
  | .error e => { p with misuse := p.misuse.or (some e) }

/-- Take one more reference to a frame in use, unless its count is at the limit. -/
def retain? (p : FramePool) (f : Frame) : Option FramePool :=
  match p.usedIndex? f with
  | none => none
  | some i =>
    if (p.cell i).refs < maxRefs then
      some (p.update i fun c => { c with refs := c.refs + 1 })
    else none

/-- Take the first free frame, zeroed and with one reference. -/
def allocOwned? (p : FramePool) : Option (FramePool × Frame) :=
  match p.alloc? with
  | none => none
  | some (p, f) => some ((p.retain? f).getD p, f)

/-- Drop one reference to a frame in use, and say whether that made it free.  A count of zero
  stays at zero, so a frame without references becomes free at once. -/
def release (p : FramePool) (f : Frame) : FramePool × Bool :=
  match p.usedIndex? f with
  | none => (p, false)
  | some i =>
    let p := p.update i Cell.drop
    if (p.cell i).refs = 0 then (p.reclaim f, true) else (p, false)

/-- Drop one reference to each of the frames, in order. -/
def releaseAll (p : FramePool) (fs : List Frame) : FramePool :=
  fs.foldl (fun p f => (p.release f).1) p

/-- Store bytes in a frame in use. -/
def write? (p : FramePool) (f : Frame) (off : Nat) (bytes : Array UInt8) : Option FramePool :=
  (p.usedIndex? f).map fun i => p.update i fun c => { c with page := c.page.write off bytes }

/-! ## The arrays and the records -/

/-- Whether a frame is in use is read off the bitmap. -/
theorem inUse_cell {p : FramePool} {i : Nat} (h : i < p.size) :
    (p.cell i).inUse = p.inUse.get i := by
  rw [cell, dif_pos h]

theorem cell_of_le {p : FramePool} {i : Nat} (h : p.size ≤ i) : p.cell i = {} :=
  dif_neg (Nat.not_lt_of_le h)

/-- A pool that is new has free frames only. -/
@[simp] theorem cell_ofSize (base : PhysAddr) (n i : Nat) : (ofSize base n).cell i = {} := by
  unfold cell ofSize
  split
  · rw [Bitmap.get_clear, Vector.getElem_replicate, Vector.getElem_replicate]
  · rfl

@[simp] theorem size_update (p : FramePool) (i : Nat) (change : Cell → Cell) :
    (p.update i change).size = p.size := rfl

@[simp] theorem base_update (p : FramePool) (i : Nat) (change : Cell → Cell) :
    (p.update i change).base = p.base := rfl

/-- **The arrays stay in step**: one record is changed, and no other. -/
theorem cell_update (p : FramePool) (i j : Nat) (change : Cell → Cell) (h : j < p.size) :
    (p.update i change).cell j = if i = j then change (p.cell j) else p.cell j := by
  have hafter : (p.update i change).cell j =
      { inUse := (p.inUse.set i (change (p.cell i)).inUse).get j
        refs := (p.refs.setIfInBounds i (change (p.cell i)).refs)[j]
        page := (p.pages.setIfInBounds i (change (p.cell i)).page)[j] } := dif_pos h
  rw [hafter, Vector.getElem_setIfInBounds, Vector.getElem_setIfInBounds]
  by_cases hij : i = j
  · subst hij
    rw [Bitmap.get_set _ _ h, if_pos rfl, if_pos rfl, if_pos rfl, if_pos rfl]
  · have hbit : (p.inUse.set i (change (p.cell i)).inUse).get j = p.inUse.get j := by
      by_cases hi : i < p.size
      · rw [Bitmap.get_set _ _ hi, if_neg hij]
      · rw [Bitmap.set_of_le _ _ (Nat.le_of_not_lt hi)]
    rw [hbit, if_neg hij, if_neg hij, if_neg hij, cell, dif_pos h]

/-- An index found for a handle is in range. -/
theorem index?_lt {p : FramePool} {f : Frame} {i : Nat} (h : p.index? f = some i) :
    i < p.size := by
  simp only [index?, Option.ite_none_right_eq_some, Option.some.injEq] at h
  obtain ⟨hm, rfl⟩ := h
  simp only [manages, Bool.and_eq_true, decide_eq_true_eq] at hm
  exact hm.2

/-- The frame that is found is free, and those before it are in use. -/
theorem firstFree?_eq_some_iff {p : FramePool} {i : Nat} :
    p.firstFree? = some i ↔
      i < p.size ∧ (p.cell i).inUse = false ∧ ∀ j, j < i → (p.cell j).inUse = true := by
  rw [firstFree?, List.find?_range_eq_some, List.mem_range]
  constructor
  · rintro ⟨hfree, hlt, hbefore⟩
    refine ⟨hlt, ?_, fun j hj => ?_⟩
    · simpa [inUse_cell hlt] using hfree
    · simpa [inUse_cell (Nat.lt_trans hj hlt)] using hbefore j hj
  · rintro ⟨hlt, hfree, hbefore⟩
    refine ⟨?_, hlt, fun j hj => ?_⟩
    · simpa [inUse_cell hlt] using hfree
    · simpa [inUse_cell (Nat.lt_trans hj hlt)] using hbefore j hj

theorem firstFree?_eq_none_iff {p : FramePool} :
    p.firstFree? = none ↔ ∀ i, i < p.size → (p.cell i).inUse = true := by
  simp only [firstFree?, List.find?_eq_none, List.mem_range, Bool.not_eq_true', Bool.not_eq_false]
  exact forall_congr' fun i => forall_congr' fun h => by rw [inUse_cell h]

end FramePool

end Exokernel
