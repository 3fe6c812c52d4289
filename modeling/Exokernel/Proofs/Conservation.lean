/-
  Where the frames are.

  A frame can hold a page directory, hold a page table, be mapped by entries, and be reserved.
  This file counts these four uses one by one, without the list of references that the kernel
  walks when it destroys a space.  In every reachable state the reference count of a frame is
  their sum, a frame is in use when the sum is positive, and the other frames are the free ones.

  The sum is the length of the list of references, so the law is what `Balanced` says of that
  list.
-/
import Mathlib.Algebra.GroupWithZero.Nat
import Mathlib.Data.List.Nodup
import Exokernel.Proofs.Steps

namespace Exokernel

/-- The frames that the pool manages, by address. -/
def FramePool.frames (p : FramePool) : List Frame := (List.range p.size).map p.frameAt

/-- The frames in use, by address. -/
def FramePool.allocated (p : FramePool) : List Frame := p.frames.filter p.isAllocated

/-! ## The uses of a frame -/

/-- How many entries of the table map the frame. -/
def PageTable.mappingsOf (t : PageTable) (f : Frame) : Nat :=
  t.entries.toList.countP fun e => e.map PageEntry.frame == some f

/-- How many of its tables the directory has in the frame. -/
def Directory.tablesIn (d : Directory) (f : Frame) : Nat :=
  d.tables.toList.countP fun t => t.map PageTable.frame == some f

/-- How many entries of its tables map the frame. -/
def Directory.mappingsOf (d : Directory) (f : Frame) : Nat :=
  (d.tables.toList.map fun t => (t.map fun t => t.mappingsOf f).getD 0).sum

namespace Memory

/-- How many live spaces have their directory in the frame. -/
def directoriesIn (m : Memory) (f : Frame) : Nat :=
  m.spaces.toList.countP fun d => d.map Directory.frame == some f

/-- How many tables of live spaces are in the frame. -/
def tablesIn (m : Memory) (f : Frame) : Nat :=
  (m.spaces.toList.map fun d => (d.map fun d => d.tablesIn f).getD 0).sum

/-- How many entries of live spaces map the frame. -/
def mappingsOf (m : Memory) (f : Frame) : Nat :=
  (m.spaces.toList.map fun d => (d.map fun d => d.mappingsOf f).getD 0).sum

/-- How many uses the frame has, besides those that the kernel reserved it for. -/
def uses (m : Memory) (f : Frame) : Nat := m.directoriesIn f + m.tablesIn f + m.mappingsOf f

/-- The books of a memory of `total` frames, of which those in `pins` are reserved. -/
structure Conserved (m : Memory) (pins : List Frame) (total : Nat) : Prop where
  /-- The count of a frame is the number of its uses. -/
  counted : ∀ f, m.pool.manages f = true → (m.pool.refCount f).toNat =
    m.directoriesIn f + m.tablesIn f + m.mappingsOf f + pins.count f
  /-- A frame is in use as long as it has a use. -/
  used : ∀ f, m.pool.manages f = true → (m.pool.isAllocated f = true ↔
    0 < m.directoriesIn f + m.tablesIn f + m.mappingsOf f + pins.count f)
  /-- The other frames are free. -/
  free : m.pool.freeCount + m.pool.allocated.length = total
  /-- No attempt to free a frame was ever refused. -/
  clean : m.pool.misuse = none
  /-- What is mapped is in use. -/
  mapped : ∀ s va f perm, m.lookup s va = some (f, perm) → m.pool.isAllocated f = true

end Memory

section Lists

variable {α : Type}

/-- The references of parents that may be missing, each with children and a frame of its own.
  The children's are counted by `n`. -/
theorem count_flatMap_frames (g : α → List Frame) (own : α → Frame) (n : α → Nat) (f : Frame)
    (hg : ∀ a, (g a).count f = n a + if own a = f then 1 else 0) (l : List (Option α)) :
    (l.flatMap fun a => (a.map g).getD []).count f =
      (l.map fun a => (a.map n).getD 0).sum + l.countP fun a => a.map own == some f := by
  induction l with
  | nil => rfl
  | cons a l ih =>
    rw [List.flatMap_cons, List.count_append, ih, List.map_cons, List.sum_cons, List.countP_cons]
    cases a with
    | none => simp
    | some a =>
      simp only [Option.map_some, Option.getD_some, hg, Option.some_beq_some, beq_iff_eq]
      omega

end Lists

theorem PageTable.count_references (t : PageTable) (f : Frame) :
    t.references.count f = t.mappingsOf f + if t.frame = f then 1 else 0 := by
  rw [references, mappingsOf, List.count_append, List.count_filterMap, List.count_singleton]
  simp only [beq_iff_eq]

theorem Directory.count_references (d : Directory) (f : Frame) :
    d.references.count f = d.mappingsOf f + d.tablesIn f + if d.frame = f then 1 else 0 := by
  rw [references, mappingsOf, tablesIn, List.count_append, List.count_singleton,
    count_flatMap_frames PageTable.references PageTable.frame (fun t => t.mappingsOf f) f
      fun t => t.count_references f]
  simp only [beq_iff_eq]

/-- **Every reference is a use.** -/
theorem Memory.count_references (m : Memory) (f : Frame) : m.references.count f = m.uses f := by
  have hsum : ∀ l : List (Option Directory),
      (l.map fun d => (d.map fun d => d.mappingsOf f + d.tablesIn f).getD 0).sum =
        (l.map fun d => (d.map fun d => d.mappingsOf f).getD 0).sum +
          (l.map fun d => (d.map fun d => d.tablesIn f).getD 0).sum := by
    intro l
    induction l with
    | nil => rfl
    | cons d l ih =>
      rw [List.map_cons, List.map_cons, List.map_cons, List.sum_cons, List.sum_cons,
        List.sum_cons, ih]
      cases d with
      | none => simp
      | some d =>
        simp only [Option.map_some, Option.getD_some]
        omega
  unfold references uses directoriesIn tablesIn mappingsOf
  rw [count_flatMap_frames Directory.references Directory.frame _ f
    fun d => d.count_references f, hsum]
  omega

/-! ## Frames in use -/

namespace FramePool

theorem mem_frames {p : FramePool} (h : p.Sound) {f : Frame} :
    f ∈ p.frames ↔ p.manages f = true := by
  rw [frames, manages_iff, List.mem_map]
  constructor
  · rintro ⟨i, hi, rfl⟩
    exact ⟨p.cell i, by rw [cell?, index?_frameAt h (List.mem_range.1 hi)]; rfl⟩
  · rintro ⟨c, hc⟩
    obtain ⟨i, hi, -⟩ := Option.map_eq_some_iff.1 hc
    have hlt := index?_lt hi
    exact ⟨i, List.mem_range.2 hlt, index?_inj (index?_frameAt h hlt) hi⟩

theorem nodup_frames {p : FramePool} (h : p.Sound) : p.frames.Nodup := by
  refine List.Nodup.map_on (fun i hi j hj hij => ?_) List.nodup_range
  have hx := index?_frameAt h (List.mem_range.1 hi)
  rw [hij, index?_frameAt h (List.mem_range.1 hj)] at hx
  exact (Option.some.inj hx).symm

/-- **The free frames are the rest.** -/
theorem freeCount_add_allocated {p : FramePool} (h : p.Sound) :
    p.freeCount + p.allocated.length = p.size := by
  -- frames and records are counted along the same indices
  have hused : p.allocated.length = p.cells.countP fun c => c.inUse := by
    unfold allocated frames cells
    rw [← List.countP_eq_length_filter, List.countP_map, List.countP_map]
    refine List.countP_congr fun i hi => ?_
    have hx := index?_frameAt h (List.mem_range.1 hi)
    simp only [Function.comp_apply, isAllocated, usedIndex?, hx, Option.filter_some]
    cases (p.cell i).inUse <;> rfl
  have hlength := List.length_eq_countP_add_countP (fun c : Cell => c.inUse) (l := p.cells)
  rw [hused, h.free, idle, ← length_cells, hlength]
  simp only [Bool.not_eq_true, Bool.decide_eq_false]
  omega

end FramePool

/-! ## The law -/

/-- Reserved pages are all different. -/
theorem nodup_of_reserved {m : Memory} {pins : List Frame} (h : m.Reserved pins) :
    pins.Nodup := by
  induction h with
  | fresh => exact List.nodup_nil
  | reserve hm hr ih =>
    obtain ⟨-, -, -, hnew⟩ := (Kernel.balanced_of_reserved hm).reserve hr
    exact List.nodup_cons.2 ⟨fun hp => hnew (List.mem_append_right _ hp), ih⟩

namespace Kernel

variable {pins : List Frame} {k k' : Kernel}

/-- Which frames there are never changes. -/
theorem Move.extent (hm : Move pins k k') (hk : k.Sound pins) :
    k'.memory.pool.extent = k.memory.pool.extent := by
  cases hm with
  | edit he =>
    cases he with
    | quiet _ _ pool => rw [pool]
    | tune => rfl
    | park => rfl
    | wait => rfl
    | remap _ _ _ touches => exact (touches hk.balanced).2.extent
    | enlist alloc =>
      obtain ⟨s, hm, -⟩ := allocEnv_spec alloc
      obtain ⟨-, f, ho⟩ := Memory.createSpace_spec hk.balanced hk.spaces_lt hm
      exact ho.extent
    | swap => rfl
  | @ending slot hl =>
    obtain ⟨s, hs, -⟩ := hk.space slot hl
    rw [memory_destroy hl hs]
    exact (Memory.destroySpace_spec hk.balanced s).2.extent
  | store s va bytes => exact Memory.extent_writeFrom hk.balanced s va bytes 0

theorem Moves.extent (hm : Moves pins k k') (hk : k.Sound pins) :
    k'.memory.pool.extent = k.memory.pool.extent := by
  induction hm with
  | refl => rfl
  | tail hm hlast ih => exact (hlast.extent (moves_sound hm hk)).trans ih

theorem extent_attended : ∀ (past : List Happening) {k : Kernel}, Reachable pins k →
    (k.attended past).memory.pool.extent = k.memory.pool.extent
  | [], _, _ => rfl
  | x :: past, _, h =>
    (extent_attended past (h.happen x)).trans ((happen_moves h.sound.toHoused x).extent h.sound)

theorem Sound.counted (h : k.Sound pins) {f : Frame} (hf : k.memory.pool.manages f = true) :
    (k.memory.pool.refCount f).toNat = k.memory.uses f + pins.count f := by
  obtain ⟨c, hc⟩ := FramePool.manages_iff.1 hf
  rw [FramePool.refCount_of_cell? hc, (h.balanced.accounts.counted f c hc).1, List.count_append,
    Memory.count_references]

theorem Sound.isAllocated_iff (h : k.Sound pins) (f : Frame) :
    k.memory.pool.isAllocated f = true ↔ 0 < k.memory.uses f + pins.count f := by
  rw [h.balanced.accounts.isAllocated_iff, ← List.count_pos_iff, List.count_append,
    Memory.count_references]

/-- Without environments, nothing but the reserved pages is in use. -/
theorem Sound.references_eq_nil (h : k.Sound pins) (hnone : ∀ slot, (k.env slot).isLive = false) :
    k.memory.references = [] := by
  refine List.eq_nil_iff_forall_not_mem.2 fun f hf => ?_
  obtain ⟨s, d, hd, -⟩ := Memory.exists_of_mem_references h.spaces_lt hf
  obtain ⟨slot, hslot, -⟩ := h.owner s (by rw [hd]; rfl)
  exact Bool.false_ne_true ((hnone slot).symm.trans hslot)

theorem Sound.conserved (h : k.Sound pins) : k.memory.Conserved pins k.memory.pool.size where
  counted _ hf := h.counted hf
  used f _ := h.isAllocated_iff f
  free := FramePool.freeCount_add_allocated h.balanced.accounts.sound
  clean := h.balanced.accounts.clean
  mapped _ _ _ _ hl := h.balanced.isAllocated_of_lookup hl

/-- Without environments the frames in use are the reserved ones, each once. -/
theorem Sound.length_allocated (h : k.Sound pins) (hnodup : pins.Nodup)
    (hnone : ∀ slot, (k.env slot).isLive = false) :
    k.memory.pool.allocated.length = pins.length := by
  have hacc := h.balanced.accounts
  have hmem : ∀ f, f ∈ k.memory.pool.allocated ↔ f ∈ pins := by
    intro f
    have hall := hacc.isAllocated_iff f
    rw [h.references_eq_nil hnone, List.nil_append] at hall
    rw [FramePool.allocated, List.mem_filter, FramePool.mem_frames hacc.sound, hall]
    exact and_iff_right_of_imp fun hp => hacc.managed f (List.mem_append_right _ hp)
  have hallocated : k.memory.pool.allocated.Nodup :=
    (FramePool.nodup_frames hacc.sound).filter _
  exact ((List.perm_ext_iff_of_nodup hallocated hnodup).2 hmem).length_eq

/-- **Frames are conserved**, whatever happens to a kernel after it was brought up.  As soon as
  no environment is left, all frames but the reserved ones are free again. -/
theorem frames_conserved (h : k.Booted pins) (past : List Happening) :
    (k.attended past).memory.Conserved pins k.memory.pool.size ∧
      ((∀ slot, ((k.attended past).env slot).isLive = false) →
        (k.attended past).memory.pool.freeCount + pins.length = k.memory.pool.size) := by
  have hk := ((Reachable.booted h).attended past).sound
  have hsize : (k.attended past).memory.pool.size = k.memory.pool.size :=
    congrArg Prod.snd (extent_attended past (.booted h))
  have hbooks := hk.conserved
  rw [hsize] at hbooks
  refine ⟨hbooks, fun hnone => ?_⟩
  rw [← hk.length_allocated (nodup_of_reserved h.reserved) hnone]
  exact hbooks.free

/-- An environment maps a page twice and writes into it. -/
def mappedTwice : List Happening :=
  [.act (.create .none 0 0), .act (.run ⟨4096⟩), .act (.call 11 #v[0, 0x800000, 7, 0, 0]),
    .act (.call 12 #v[0, 0x800000, 0, 0xC00000, 5]), .store ⟨4096⟩ ⟨0x800000⟩ #[1, 2, 3]]

theorem frames_conserved_mappedTwice :
    (small.attended mappedTwice).memory.Conserved [] 16 ∧
      ((∀ slot, ((small.attended mappedTwice).env slot).isLive = false) →
        (small.attended mappedTwice).memory.pool.freeCount + 0 = 16) :=
  frames_conserved booted_small mappedTwice

end Kernel

end Exokernel
