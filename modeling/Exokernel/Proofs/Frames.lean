/-
  The frame pool as a map from handles to records.

  `cell?` finds the record behind a handle, and `Rewrites` says that an operation changed this
  map at one handle and nowhere else.  Every operation of the pool gets one such equation, so
  nothing outside this file opens the array of records.

  `Accounts` is the bookkeeping law: the pool counts exactly the references in a given list, and
  its frames in use are exactly those with a reference, apart from fresh ones that nobody refers
  to yet.  Each operation moves the list by the reference that it takes or drops.
-/
import Exokernel.FramePool
import Mathlib.Data.List.Perm.Basic

namespace Exokernel.FramePool

/-! ## Handles and records -/

/-- The record behind a handle, if the pool manages the frame. -/
def cell? (p : FramePool) (f : Frame) : Option Cell := (p.index? f).map p.cell

theorem index?_eq_some_iff {p : FramePool} {f : Frame} {i : Nat} :
    p.index? f = some i ↔ f.addr.toNat % pageSize = 0 ∧ p.base.toNat ≤ f.addr.toNat ∧
      (f.addr.toNat - p.base.toNat) / pageSize = i ∧ i < p.size := by
  simp only [index?, manages, PhysAddr.isAligned, Option.ite_none_right_eq_some,
    Bool.and_eq_true, beq_iff_eq, decide_eq_true_eq, Option.some.injEq]
  unfold distance
  constructor
  · rintro ⟨⟨⟨ha, hb⟩, hs⟩, rfl⟩
    exact ⟨ha, hb, rfl, hs⟩
  · rintro ⟨ha, hb, rfl, hs⟩
    exact ⟨⟨⟨ha, hb⟩, hs⟩, rfl⟩

/-- Two handles of one record are the same handle. -/
theorem index?_inj {p : FramePool} {f g : Frame} {i : Nat} (hf : p.index? f = some i)
    (hg : p.index? g = some i) : f = g := by
  obtain ⟨hfa, hfb, hfi, -⟩ := index?_eq_some_iff.1 hf
  obtain ⟨hga, hgb, hgi, -⟩ := index?_eq_some_iff.1 hg
  have hn : f.addr.toNat = g.addr.toNat := by
    simp only [pageSize] at *
    omega
  cases f
  cases g
  exact congrArg Frame.mk (PhysAddr.toNat_inj.1 hn)

theorem manages_iff {p : FramePool} {f : Frame} : p.manages f = true ↔ ∃ c, p.cell? f = some c := by
  by_cases h : p.manages f = true <;> simp [cell?, index?, h]

theorem usedIndex?_eq_some_iff {p : FramePool} {f : Frame} {i : Nat} :
    p.usedIndex? f = some i ↔ p.index? f = some i ∧ (p.cell i).inUse = true := by
  simp [usedIndex?, Option.filter_eq_some_iff]

theorem isAllocated_iff {p : FramePool} {f : Frame} :
    p.isAllocated f = true ↔ ∃ c, p.cell? f = some c ∧ c.inUse = true := by
  simp only [isAllocated, Option.isSome_iff_exists, usedIndex?_eq_some_iff, cell?,
    Option.map_eq_some_iff]
  constructor
  · rintro ⟨i, hi, hu⟩
    exact ⟨_, ⟨i, hi, rfl⟩, hu⟩
  · rintro ⟨_, ⟨i, hi, rfl⟩, hu⟩
    exact ⟨i, hi, hu⟩

theorem manages_of_isAllocated {p : FramePool} {f : Frame} (h : p.isAllocated f = true) :
    p.manages f = true := by
  obtain ⟨c, hc, -⟩ := isAllocated_iff.1 h
  exact manages_iff.2 ⟨c, hc⟩

/-- A frame whose record says that it is free is not in use. -/
theorem isAllocated_eq_false {p : FramePool} {f : Frame}
    (h : ∃ c, p.cell? f = some c ∧ c.inUse = false) : p.isAllocated f = false := by
  obtain ⟨c, hc, hfree⟩ := h
  refine Bool.eq_false_iff.2 fun hused => ?_
  obtain ⟨c', hc', hu⟩ := isAllocated_iff.1 hused
  obtain rfl : c = c' := Option.some.inj (hc.symm.trans hc')
  exact Bool.false_ne_true (hfree.symm.trans hu)

theorem refCount_of_cell? {p : FramePool} {f : Frame} {c : Cell} (h : p.cell? f = some c) :
    p.refCount f = c.refs := by
  obtain ⟨i, hi, rfl⟩ := Option.map_eq_some_iff.1 h
  simp only [refCount, hi]

theorem page?_eq (p : FramePool) (f : Frame) :
    p.page? f = ((p.cell? f).filter fun c => c.inUse).map fun c => c.page := by
  unfold page? usedIndex? cell?
  cases p.index? f with
  | none => rfl
  | some i => by_cases hu : (p.cell i).inUse = true <;> simp [Option.filter, hu]

/-- The records, in the order of the frames. -/
def cells (p : FramePool) : List Cell := (List.range p.size).map p.cell

/-- How many records are those of free frames. -/
def idle (p : FramePool) : Nat := p.cells.countP fun c => !c.inUse

theorem length_cells (p : FramePool) : p.cells.length = p.size := by
  rw [cells, List.length_map, List.length_range]

theorem mem_cells {p : FramePool} {c : Cell} : c ∈ p.cells ↔ ∃ i, i < p.size ∧ p.cell i = c := by
  simp only [cells, List.mem_map, List.mem_range]

/-- No frame is found exactly when none is free. -/
theorem firstFree?_eq_none_iff_idle {p : FramePool} : p.firstFree? = none ↔ p.idle = 0 := by
  rw [firstFree?_eq_none_iff, idle, List.countP_eq_zero]
  constructor
  · intro hall c hc
    obtain ⟨i, hi, rfl⟩ := mem_cells.1 hc
    rw [hall i hi]
    exact Bool.false_ne_true
  · intro hall i hi
    simpa using hall _ (mem_cells.2 ⟨i, hi, rfl⟩)

/-! ## Changing one record -/

/-- The pool `p'` is `p` with the record behind `f` replaced by `c`. -/
structure Rewrites (p p' : FramePool) (f : Frame) (c : Cell) : Prop where
  base : p'.base = p.base
  size : p'.size = p.size
  misuse : p'.misuse = p.misuse
  cell : ∀ g, p'.cell? g = if g = f then some c else p.cell? g
  spare : ∀ i, p.size ≤ i → p'.inUse.get i = p.inUse.get i

theorem Rewrites.manages {p p' : FramePool} {f : Frame} {c : Cell} (h : p.Rewrites p' f c)
    (g : Frame) : p'.manages g = p.manages g := by
  unfold FramePool.manages distance
  rw [h.base, h.size]

/-- Which frames a pool manages. -/
def extent (p : FramePool) : PhysAddr × Nat := (p.base, p.size)

theorem Rewrites.extent {p p' : FramePool} {f : Frame} {c : Cell} (h : p.Rewrites p' f c) :
    p'.extent = p.extent :=
  congrArg₂ Prod.mk h.base h.size

theorem Rewrites.trans {p q r : FramePool} {f : Frame} {c d : Cell} (h : p.Rewrites q f c)
    (h' : q.Rewrites r f d) : p.Rewrites r f d where
  base := h'.base.trans h.base
  size := h'.size.trans h.size
  misuse := h'.misuse.trans h.misuse
  cell g := by
    rw [h'.cell g, h.cell g]
    split <;> rfl
  spare i hi := (h'.spare i (h.size ▸ hi)).trans (h.spare i hi)

theorem index?_update (p : FramePool) (i : Nat) (change : Cell → Cell) (f : Frame) :
    (p.update i change).index? f = p.index? f := by
  unfold index? manages distance
  rw [base_update, size_update]

theorem rewrites_update {p : FramePool} {f : Frame} {i : Nat} (h : p.index? f = some i)
    (change : Cell → Cell) : p.Rewrites (p.update i change) f (change (p.cell i)) where
  base := rfl
  size := size_update p i change
  misuse := rfl
  cell g := by
    unfold cell?
    rw [index?_update]
    by_cases hg : g = f
    · subst hg
      rw [h, if_pos rfl, Option.map_some, cell_update p i i change (index?_lt h), if_pos rfl]
    · rw [if_neg hg]
      cases hj : p.index? g with
      | none => rfl
      | some j =>
        have hij : i ≠ j := by
          rintro rfl
          exact hg (index?_inj hj h)
        rw [Option.map_some, Option.map_some, cell_update p i j change (index?_lt hj), if_neg hij]
  spare _ hj := p.inUse.get_set_of_le i _ hj

theorem cells_update (p : FramePool) (i : Nat) (change : Cell → Cell) :
    (p.update i change).cells = p.cells.set i (change (p.cell i)) := by
  refine List.ext_getElem ?_ fun j hj hj' => ?_
  · rw [List.length_set, length_cells, length_cells, size_update]
  · rw [length_cells, size_update] at hj
    rw [List.getElem_set]
    simp only [cells, List.getElem_map, List.getElem_range]
    rw [cell_update p i j change hj]
    split
    · rename_i heq
      rw [heq]
    · rfl

/-- Changing one record moves the number of free frames by what it does to that record. -/
theorem idle_update {p : FramePool} {i : Nat} (h : i < p.size) (change : Cell → Cell) :
    (p.update i change).idle + (!(p.cell i).inUse).toNat =
      p.idle + (!(change (p.cell i)).inUse).toNat := by
  have h' : i < p.cells.length := (length_cells p).symm ▸ h
  have hc : p.cells[i] = p.cell i := by
    simp only [cells, List.getElem_map, List.getElem_range]
  -- the count of the rest is a difference, so the old record must be among what is counted
  have hpos : (!(p.cell i).inUse).toNat ≤ p.cells.countP fun c => !c.inUse := by
    cases hu : (p.cell i).inUse with
    | true => exact Nat.zero_le _
    | false => exact List.countP_pos_iff.2 ⟨_, mem_cells.2 ⟨i, h, rfl⟩, by rw [hu]; rfl⟩
  unfold idle
  rw [cells_update, List.countP_set h', hc]
  revert hpos
  cases (p.cell i).inUse <;> cases (change (p.cell i)).inUse <;>
    simp only [Bool.not_false, Bool.not_true, Bool.toNat_true, Bool.toNat_false, if_true,
      Bool.false_eq_true, if_false] <;> omega

/-! ## Sound pools -/

/-- The pool lies on page boundaries and within 64 bits, and knows how many frames are free. -/
structure Sound (p : FramePool) : Prop where
  aligned : p.base.toNat % pageSize = 0
  fits : p.base.toNat + p.size * pageSize ≤ 0x10000000000000000
  free : p.freeCount = p.idle

theorem index?_frameAt {p : FramePool} (h : p.Sound) {i : Nat} (hi : i < p.size) :
    p.index? (p.frameAt i) = some i := by
  have hf := h.fits
  have ha := h.aligned
  have hn : (p.frameAt i).addr.toNat = p.base.toNat + i * pageSize := by
    apply PhysAddr.toNat_ofNat
    simp only [pageSize] at *
    omega
  rw [index?_eq_some_iff, hn]
  simp only [pageSize] at *
  exact ⟨by omega, by omega, by omega, hi⟩

/-- A change keeps the pool sound if free frames are counted anew. -/
theorem Sound.recount {p : FramePool} (hs : p.Sound) {i n : Nat} (hi : i < p.size)
    {change : Cell → Cell} (hn : n + (!(p.cell i).inUse).toNat =
      p.freeCount + (!(change (p.cell i)).inUse).toNat) :
    Sound { p.update i change with freeCount := n } := by
  refine ⟨hs.aligned, hs.fits, ?_⟩
  have hm := idle_update hi change
  have hf := hs.free
  show n = (p.update i change).idle
  omega

/-- A change that leaves the frame free or in use, as it was, keeps the pool sound. -/
theorem Sound.update {p : FramePool} (hs : p.Sound) {i : Nat} (hi : i < p.size)
    {change : Cell → Cell} (hu : (change (p.cell i)).inUse = (p.cell i).inUse) :
    (p.update i change).Sound :=
  hs.recount hi (by rw [hu])

/-! ## The operations -/

/-- Taking a reference changes the count of that frame alone. -/
theorem retain?_spec {p p' : FramePool} {f : Frame} (hs : p.Sound) (h : p.retain? f = some p') :
    ∃ c, p.cell? f = some c ∧ c.inUse = true ∧ c.refs < maxRefs ∧ p'.Sound ∧
      p.Rewrites p' f { c with refs := c.refs + 1 } := by
  unfold retain? at h
  cases hi : p.usedIndex? f with
  | none => simp [hi] at h
  | some i =>
    obtain ⟨hx, hu⟩ := usedIndex?_eq_some_iff.1 hi
    simp only [hi, Option.ite_none_right_eq_some, Option.some.injEq] at h
    obtain ⟨hlt, rfl⟩ := h
    exact ⟨p.cell i, by rw [cell?, hx]; rfl, hu, hlt, hs.update (index?_lt hx) rfl,
      rewrites_update hx _⟩

theorem retain?_isSome {p : FramePool} {f : Frame} {c : Cell} (hc : p.cell? f = some c)
    (hu : c.inUse = true) (hlt : c.refs < maxRefs) : ∃ p', p.retain? f = some p' := by
  obtain ⟨i, hi, rfl⟩ := Option.map_eq_some_iff.1 hc
  have hx := usedIndex?_eq_some_iff.2 ⟨hi, hu⟩
  refine ⟨p.update i fun c => { c with refs := c.refs + 1 }, ?_⟩
  simp only [retain?, hx, if_pos hlt]

/-- Freeing a frame that is in use and has no references succeeds. -/
theorem reclaim_spec {p : FramePool} {f : Frame} {c : Cell} (hs : p.Sound)
    (hc : p.cell? f = some c) (hu : c.inUse = true) (hz : c.refs = 0) :
    (p.reclaim f).Sound ∧ p.Rewrites (p.reclaim f) f { c with inUse := false, refs := 0 } := by
  obtain ⟨i, hi, rfl⟩ := Option.map_eq_some_iff.1 hc
  have hr : p.reclaim f = p.vacate i := by simp [reclaim, free, hi, hu, hz]
  have hw := rewrites_update hi fun c => { c with inUse := false, refs := 0 }
  rw [hr]
  refine ⟨hs.recount (index?_lt hi) ?_, ⟨hw.base, hw.size, hw.misuse, hw.cell, hw.spare⟩⟩
  rw [hu]
  rfl

theorem drop_refs (c : Cell) : c.drop.refs.toNat = c.refs.toNat - 1 := by
  unfold Cell.drop
  by_cases h0 : c.refs = 0
  · simp [h0]
  · have hn : c.refs.toNat ≠ 0 := fun hn => h0 (UInt16.toNat_inj.1 hn)
    have hle : (1 : UInt16) ≤ c.refs := by
      rw [UInt16.le_iff_toNat_le]
      exact Nat.one_le_iff_ne_zero.2 hn
    simp only [if_neg h0]
    exact UInt16.toNat_sub_of_le _ _ hle

/-- A frame in use goes at a count of 1, and at a count of 0, which stays at 0. -/
theorem release_eq {p : FramePool} {f : Frame} {i : Nat} (hi : p.index? f = some i)
    (hu : (p.cell i).inUse = true) :
    p.release f =
      if (p.cell i).refs.toNat ≤ 1 then ((p.update i Cell.drop).reclaim f, true)
      else (p.update i Cell.drop, false) := by
  have hx := usedIndex?_eq_some_iff.2 ⟨hi, hu⟩
  have hcell : (p.update i Cell.drop).cell i = (p.cell i).drop := by
    rw [cell_update p i i Cell.drop (index?_lt hi), if_pos rfl]
  have hzero : (p.cell i).drop.refs = 0 ↔ (p.cell i).refs.toNat ≤ 1 := by
    rw [← UInt16.toNat_inj, drop_refs, UInt16.toNat_zero]
    omega
  simp only [release, hx, hcell, hzero]

/-- Dropping a reference to a frame in use: the last one makes it free. -/
theorem release_spec {p : FramePool} {f : Frame} {c : Cell} (hs : p.Sound)
    (hc : p.cell? f = some c) (hu : c.inUse = true) :
    (p.release f).1.Sound ∧
      (if c.refs.toNat ≤ 1 then
        p.Rewrites (p.release f).1 f { c with inUse := false, refs := 0 }
      else p.Rewrites (p.release f).1 f c.drop) := by
  obtain ⟨i, hi, rfl⟩ := Option.map_eq_some_iff.1 hc
  have hw : p.Rewrites (p.update i Cell.drop) f (p.cell i).drop := rewrites_update hi Cell.drop
  have hq : (p.update i Cell.drop).Sound := hs.update (index?_lt hi) rfl
  have hval := drop_refs (p.cell i)
  rw [release_eq hi hu]
  by_cases hlast : (p.cell i).refs.toNat ≤ 1
  · rw [if_pos hlast, if_pos hlast]
    have hc' : (p.update i Cell.drop).cell? f = some (p.cell i).drop := by
      rw [hw.cell f, if_pos rfl]
    have hz : (p.cell i).drop.refs = 0 := by
      rw [← UInt16.toNat_inj, hval, UInt16.toNat_zero]
      omega
    obtain ⟨hs', hw'⟩ := reclaim_spec hq hc' hu hz
    exact ⟨hs', hw.trans hw'⟩
  · rw [if_neg hlast, if_neg hlast]
    exact ⟨hq, hw⟩

/-- A handle that names no frame in use is ignored. -/
theorem release_eq_of_not_allocated {p : FramePool} {f : Frame} (h : p.isAllocated f = false) :
    p.release f = (p, false) := by
  have hn : p.usedIndex? f = none := by simpa [isAllocated] using h
  simp only [release, hn]

theorem release_of_not_allocated {p : FramePool} {f : Frame} (h : p.isAllocated f = false) :
    (p.release f).1 = p := by
  rw [release_eq_of_not_allocated h]

theorem extent_release {p : FramePool} (hs : p.Sound) (f : Frame) :
    (p.release f).1.extent = p.extent := by
  by_cases ha : p.isAllocated f = true
  · obtain ⟨c, hc, hu⟩ := isAllocated_iff.1 ha
    obtain ⟨-, hw⟩ := release_spec hs hc hu
    split at hw <;> exact hw.extent
  · rw [release_of_not_allocated (Bool.eq_false_iff.2 ha)]

/-- Allocation takes a frame that was free and clears it. -/
theorem alloc?_spec {p p' : FramePool} {f : Frame} (hs : p.Sound) (h : p.alloc? = some (p', f)) :
    p'.Sound ∧ p.Rewrites p' f { inUse := true } ∧
      ∃ c, p.cell? f = some c ∧ c.inUse = false := by
  unfold alloc? at h
  by_cases h0 : p.freeCount = 0
  · simp [h0] at h
  rw [if_neg h0] at h
  cases hi : p.firstFree? with
  | none => simp [hi] at h
  | some i =>
    simp only [hi, Option.some.injEq, Prod.mk.injEq] at h
    obtain ⟨rfl, rfl⟩ := h
    obtain ⟨hlt, hfree, -⟩ := firstFree?_eq_some_iff.1 hi
    have hx : p.index? (p.frameAt i) = some i := index?_frameAt hs hlt
    have hw := rewrites_update hx fun _ => ({ inUse := true } : Cell)
    refine ⟨hs.recount hlt ?_, ⟨hw.base, hw.size, hw.misuse, hw.cell, hw.spare⟩,
      p.cell i, by rw [cell?, hx]; rfl, hfree⟩
    rw [hfree]
    exact Nat.sub_add_cancel (Nat.pos_of_ne_zero h0)

theorem allocOwned?_spec {p p' : FramePool} {f : Frame} (hs : p.Sound)
    (h : p.allocOwned? = some (p', f)) :
    p'.Sound ∧ p.Rewrites p' f { inUse := true, refs := 1 } ∧
      ∃ c, p.cell? f = some c ∧ c.inUse = false := by
  unfold allocOwned? at h
  cases ha : p.alloc? with
  | none => simp [ha] at h
  | some r =>
    obtain ⟨q, g⟩ := r
    simp only [ha, Option.some.injEq, Prod.mk.injEq] at h
    obtain ⟨rfl, rfl⟩ := h
    obtain ⟨hq, hw, hfree⟩ := alloc?_spec hs ha
    have hc : q.cell? g = some { inUse := true } := by rw [hw.cell g, if_pos rfl]
    -- a frame just allocated has no reference, so there is room for one
    obtain ⟨r, hr⟩ := retain?_isSome hc rfl (by decide)
    obtain ⟨c, hc', -, -, hr', hw'⟩ := retain?_spec hq hr
    obtain rfl : { inUse := true } = c := by simpa [hc] using hc'
    rw [hr]
    exact ⟨hr', hw.trans hw', hfree⟩

/-! ## The bookkeeping -/

/-- The pool counts the references in `held`, and has in use the frames in `held` and those in
  `fresh`, which nobody refers to yet. -/
structure Accounts (p : FramePool) (held fresh : List Frame) : Prop where
  sound : p.Sound
  counted : ∀ f c, p.cell? f = some c →
    c.refs.toNat = held.count f ∧ (c.inUse = true ↔ f ∈ held ∨ f ∈ fresh)
  managed : ∀ f ∈ held, p.manages f = true
  clean : p.misuse = none

/-- A pool of free frames counts no reference. -/
theorem accounts_ofSize {base : PhysAddr} {n : Nat} (ha : base.toNat % pageSize = 0)
    (hf : base.toNat + n * pageSize ≤ 0x10000000000000000) : (ofSize base n).Accounts [] [] := by
  have hcell : ∀ f c, (ofSize base n).cell? f = some c → c = {} := by
    intro f c hc
    obtain ⟨i, -, rfl⟩ := Option.map_eq_some_iff.1 hc
    exact cell_ofSize base n i
  refine ⟨⟨ha, hf, ?_⟩, fun f c hc => ?_, fun f hf => absurd hf List.not_mem_nil, rfl⟩
  · have hidle : (ofSize base n).idle = (ofSize base n).cells.length := by
      refine List.countP_eq_length.2 fun c hc => ?_
      obtain ⟨i, -, rfl⟩ := mem_cells.1 hc
      rw [cell_ofSize]
      rfl
    rw [hidle, length_cells]
    rfl
  · rw [hcell f c hc]
    simp

theorem Accounts.perm {p : FramePool} {held held' fresh : List Frame}
    (h : p.Accounts held fresh) (hp : held.Perm held') : p.Accounts held' fresh where
  sound := h.sound
  counted f c hc := by
    rw [← hp.count_eq, ← hp.mem_iff]
    exact h.counted f c hc
  managed f hf := h.managed f (hp.mem_iff.2 hf)
  clean := h.clean

/-- Which of the frames with references are called fresh does not matter. -/
theorem Accounts.settle {p : FramePool} {held fresh fresh' : List Frame} (h : p.Accounts held fresh)
    (hf : ∀ f, f ∉ held → (f ∈ fresh' ↔ f ∈ fresh)) : p.Accounts held fresh' where
  sound := h.sound
  counted g c hc := by
    obtain ⟨hn, hu⟩ := h.counted g c hc
    refine ⟨hn, hu.trans ?_⟩
    by_cases hg : g ∈ held
    · simp only [hg, true_or]
    · simp only [hg, false_or, hf g hg]
  managed := h.managed
  clean := h.clean

/-- The record behind a held reference. -/
theorem Accounts.cell_of_mem {p : FramePool} {held fresh : List Frame} {f : Frame}
    (h : p.Accounts held fresh) (hf : f ∈ held) : ∃ c, p.cell? f = some c ∧ c.inUse = true := by
  obtain ⟨c, hc⟩ := manages_iff.1 (h.managed f hf)
  exact ⟨c, hc, (h.counted f c hc).2.2 (Or.inl hf)⟩

/-- One record and the lists change together; what the lists say of other frames stays. -/
theorem Accounts.rewrite {p p' : FramePool} {held held' fresh fresh' : List Frame} {f : Frame}
    {c : Cell} (h : p.Accounts held fresh) (hs : p'.Sound) (hw : p.Rewrites p' f c)
    (hc : c.refs.toNat = held'.count f ∧ (c.inUse = true ↔ f ∈ held' ∨ f ∈ fresh'))
    (hother : ∀ g, g ≠ f → held'.count g = held.count g ∧ (g ∈ fresh' ↔ g ∈ fresh))
    (hf : p.manages f = true) : p'.Accounts held' fresh' where
  sound := hs
  counted g d hd := by
    rw [hw.cell g] at hd
    by_cases hg : g = f
    · subst hg
      rw [if_pos rfl, Option.some.injEq] at hd
      exact hd ▸ hc
    · rw [if_neg hg] at hd
      obtain ⟨hcount, hfresh⟩ := hother g hg
      have hmem : g ∈ held' ↔ g ∈ held := by
        rw [← List.count_pos_iff, ← List.count_pos_iff, hcount]
      rw [hcount, hfresh, hmem]
      exact h.counted g d hd
  managed g hg := by
    rw [hw.manages g]
    by_cases hgf : g = f
    · exact hgf ▸ hf
    · apply h.managed g
      rw [← List.count_pos_iff, ← (hother g hgf).1]
      exact List.count_pos_iff.2 hg
  clean := hw.misuse.trans h.clean

theorem Accounts.retain {p p' : FramePool} {held fresh : List Frame} {f : Frame}
    (h : p.Accounts held fresh) (hr : p.retain? f = some p') : p'.Accounts (f :: held) fresh := by
  obtain ⟨c, hc, hu, hlt, hs, hw⟩ := retain?_spec h.sound hr
  obtain ⟨hn, hin⟩ := h.counted f c hc
  refine h.rewrite hs hw ⟨?_, ?_⟩ (fun g hg => ⟨?_, Iff.rfl⟩) (manages_iff.2 ⟨c, hc⟩)
  · -- a full count is refused, so this one does not wrap around
    have hb : c.refs.toNat < 65535 := UInt16.lt_iff_toNat_lt.1 hlt
    rw [List.count_cons_self, ← hn, UInt16.toNat_add]
    simp only [UInt16.reduceToNat]
    omega
  · exact iff_of_true hu (Or.inl List.mem_cons_self)
  · exact List.count_cons_of_ne fun h => hg h.symm

/-- Whoever gives up a reference leaves the frame to others, or free. -/
theorem Accounts.release {p : FramePool} {held fresh : List Frame} {f : Frame}
    (h : p.Accounts (f :: held) fresh) :
    (p.release f).1.Accounts held (fresh.filter fun g => g ≠ f) := by
  obtain ⟨c, hc, hu⟩ := h.cell_of_mem List.mem_cons_self
  obtain ⟨hs, hw⟩ := release_spec h.sound hc hu
  have hn := (h.counted f c hc).1
  rw [List.count_cons_self] at hn
  have hm : p.manages f = true := manages_iff.2 ⟨c, hc⟩
  have hother : ∀ g, g ≠ f →
      held.count g = (f :: held).count g ∧ (g ∈ fresh.filter (fun g => g ≠ f) ↔ g ∈ fresh) :=
    fun g hg => ⟨(List.count_cons_of_ne fun h => hg h.symm).symm, by simp [hg]⟩
  by_cases hle : c.refs.toNat ≤ 1
  · -- it was the last reference, and the frame goes
    rw [if_pos hle] at hw
    have h0 : held.count f = 0 := by omega
    refine h.rewrite hs hw ⟨h0.symm, ?_⟩ hother hm
    have hf : f ∉ held := List.count_eq_zero.1 h0
    simp [hf]
  · -- somebody else refers to the frame, and it stays
    rw [if_neg hle] at hw
    have hf : f ∈ held := List.count_pos_iff.1 (by omega)
    refine h.rewrite hs hw ⟨?_, iff_of_true hu (Or.inl hf)⟩ hother hm
    rw [drop_refs]
    omega

theorem Accounts.releaseAll {held : List Frame} : ∀ {fs fresh : List Frame} {p : FramePool},
    p.Accounts (fs ++ held) fresh →
      ∃ fresh', fresh' ⊆ fresh ∧ (p.releaseAll fs).Accounts held fresh'
  | [], _, _, h => ⟨_, List.Subset.refl _, h⟩
  | f :: fs, fresh, p, h => by
    have hstep : (p.release f).1.Accounts (fs ++ held) (fresh.filter fun g => g ≠ f) := h.release
    obtain ⟨fresh', hsub, hrest⟩ := hstep.releaseAll
    exact ⟨fresh', fun g hg => List.mem_of_mem_filter (hsub hg), hrest⟩

theorem Accounts.extent_releaseAll {held : List Frame} : ∀ {fs fresh : List Frame} {p : FramePool},
    p.Accounts (fs ++ held) fresh → (p.releaseAll fs).extent = p.extent
  | [], _, _, _ => rfl
  | f :: fs, fresh, p, h => by
    have hstep : (p.release f).1.Accounts (fs ++ held) (fresh.filter fun g => g ≠ f) := h.release
    exact hstep.extent_releaseAll.trans (extent_release h.sound f)

/-- A frame that was free has no reference and is not fresh. -/
theorem Accounts.not_mem_of_free {p : FramePool} {held fresh : List Frame} {f : Frame}
    (h : p.Accounts held fresh) (hfree : ∃ c, p.cell? f = some c ∧ c.inUse = false) :
    f ∉ held ∧ f ∉ fresh := by
  obtain ⟨c, hc, hu⟩ := hfree
  have hin := (h.counted f c hc).2
  rw [hu] at hin
  have hn : ¬ (f ∈ held ∨ f ∈ fresh) := fun hf => Bool.false_ne_true (hin.2 hf)
  exact not_or.1 hn

theorem Accounts.alloc {p p' : FramePool} {held fresh : List Frame} {f : Frame}
    (h : p.Accounts held fresh) (ha : p.alloc? = some (p', f)) :
    p'.Accounts held (f :: fresh) ∧ f ∉ held := by
  obtain ⟨hs, hw, hfree⟩ := alloc?_spec h.sound ha
  obtain ⟨hh, -⟩ := h.not_mem_of_free hfree
  obtain ⟨c, hc, -⟩ := hfree
  refine ⟨h.rewrite hs hw ⟨?_, ?_⟩ (fun g hg => ⟨rfl, ?_⟩) (manages_iff.2 ⟨c, hc⟩), hh⟩
  · exact (List.count_eq_zero.2 hh).symm
  · exact iff_of_true rfl (Or.inr List.mem_cons_self)
  · simp [hg]

theorem Accounts.allocOwned {p p' : FramePool} {held fresh : List Frame} {f : Frame}
    (h : p.Accounts held fresh) (ha : p.allocOwned? = some (p', f)) :
    p'.Accounts (f :: held) fresh ∧ f ∉ held ∧ f ∉ fresh := by
  obtain ⟨hs, hw, hfree⟩ := allocOwned?_spec h.sound ha
  obtain ⟨hh, hfr⟩ := h.not_mem_of_free hfree
  obtain ⟨c, hc, -⟩ := hfree
  refine ⟨h.rewrite hs hw ⟨?_, ?_⟩ (fun g hg => ⟨?_, Iff.rfl⟩) (manages_iff.2 ⟨c, hc⟩), hh, hfr⟩
  · rw [List.count_cons_self, List.count_eq_zero.2 hh]
    rfl
  · exact iff_of_true rfl (Or.inl List.mem_cons_self)
  · exact List.count_cons_of_ne fun h => hg h.symm

/-- Giving a frame back that nobody refers to. -/
theorem Accounts.reclaim {p : FramePool} {held fresh : List Frame} {f : Frame}
    (h : p.Accounts held fresh) (hf : f ∉ held) (hu : p.isAllocated f = true) :
    (p.reclaim f).Accounts held (fresh.filter fun g => g ≠ f) := by
  obtain ⟨c, hc, hu⟩ := FramePool.isAllocated_iff.1 hu
  have hn := (h.counted f c hc).1
  rw [List.count_eq_zero.2 hf] at hn
  obtain ⟨hs, hw⟩ := reclaim_spec h.sound hc hu (UInt16.toNat_inj.1 hn)
  refine h.rewrite hs hw ⟨(List.count_eq_zero.2 hf).symm, ?_⟩ (fun g hg => ⟨rfl, ?_⟩)
    (manages_iff.2 ⟨c, hc⟩)
  · simp [hf]
  · simp [hg]

theorem Accounts.isAllocated_iff {p : FramePool} {held : List Frame} (h : p.Accounts held [])
    (f : Frame) : p.isAllocated f = true ↔ f ∈ held := by
  rw [FramePool.isAllocated_iff]
  constructor
  · rintro ⟨c, hc, hu⟩
    simpa using (h.counted f c hc).2.1 hu
  · exact fun hf => h.cell_of_mem hf

/-! ## Contents

  What is stored in a frame stays there until the frame is allocated again. -/

/-- What is stored behind a handle, whether the frame is in use or not. -/
def stored? (p : FramePool) (f : Frame) : Option Page := (p.cell? f).map fun c => c.page

theorem page?_of_isAllocated {p : FramePool} {f : Frame} (h : p.isAllocated f = true) :
    p.page? f = p.stored? f := by
  obtain ⟨c, hc, hu⟩ := isAllocated_iff.1 h
  simp [page?_eq, stored?, hc, Option.filter, hu]

theorem Rewrites.stored?_eq {p p' : FramePool} {f : Frame} {c d : Cell} (h : p.Rewrites p' f d)
    (hc : p.cell? f = some c) (hd : d.page = c.page) (g : Frame) :
    p'.stored? g = p.stored? g := by
  unfold stored?
  rw [h.cell g]
  by_cases hg : g = f
  · subst hg
    rw [if_pos rfl, hc, Option.map_some, Option.map_some, hd]
  · rw [if_neg hg]

/-- Taking a frame that was free leaves the contents of the frames in use. -/
theorem Rewrites.stored?_of_isAllocated {p p' : FramePool} {f g : Frame} {d : Cell}
    (h : p.Rewrites p' f d) (hfree : ∃ c, p.cell? f = some c ∧ c.inUse = false)
    (hg : p.isAllocated g = true) : p'.stored? g = p.stored? g := by
  -- what is in use is not what was free
  have hne : g ≠ f := by
    rintro rfl
    exact Bool.false_ne_true ((isAllocated_eq_false hfree).symm.trans hg)
  unfold stored?
  rw [h.cell g, if_neg hne]

theorem stored?_retain {p p' : FramePool} {f : Frame} (hs : p.Sound) (h : p.retain? f = some p')
    (g : Frame) : p'.stored? g = p.stored? g := by
  obtain ⟨c, hc, -, -, -, hw⟩ := retain?_spec hs h
  exact hw.stored?_eq hc rfl g

theorem stored?_release {p : FramePool} (hs : p.Sound) (f g : Frame) :
    (p.release f).1.stored? g = p.stored? g := by
  by_cases ha : p.isAllocated f = true
  · obtain ⟨c, hc, hu⟩ := isAllocated_iff.1 ha
    obtain ⟨-, hw⟩ := release_spec hs hc hu
    split at hw <;> exact hw.stored?_eq hc rfl g
  · rw [release_of_not_allocated (Bool.eq_false_iff.2 ha)]

theorem stored?_releaseAll {held : List Frame} (g : Frame) :
    ∀ {fs fresh : List Frame} {p : FramePool}, p.Accounts (fs ++ held) fresh →
      (p.releaseAll fs).stored? g = p.stored? g
  | [], _, _, _ => rfl
  | f :: fs, fresh, p, h => by
    have hstep : (p.release f).1.Accounts (fs ++ held) (fresh.filter fun g => g ≠ f) := h.release
    rw [← stored?_release h.sound f g]
    exact stored?_releaseAll g hstep

end Exokernel.FramePool
