/-
  Two levels of tables are one flat map.

  Whatever memory is asked to do, with whatever arguments, lookups see a flat map: a mapping appears
  at one page of one space when it is made, and goes when it is removed or when its space ends.
  Frames that are given back while somebody maps them, spaces that map the directories of others
  and numbers that are used again make no difference.

  Two things have to be known of memory for this.  What is in an entry comes out of it again, which
  rests on where frames lie.  And a number never stands for two spaces: every live space has a
  frame of its own for its directory, so there are no more spaces than frames, and far fewer than
  numbers.  The books that show the directories to be in use are those of the kernel, only that
  frames may have been taken that nobody refers to.

  Mapping a page fails for five reasons.  The reference to the frame is taken after a table was
  added, and that would stay.  But this step cannot fail any more: the new table is in a frame that
  was free, and the frame to be mapped was not.  So a failure leaves nothing behind.
-/
import Exokernel.Memory.FlatMap
import Exokernel.Proofs.Conservation
import Exokernel.Proofs.Entries

namespace Exokernel

/-! ## Flat maps -/

theorem VirtAddr.pageNumber_eq_iff {a b : VirtAddr} :
    a.pageNumber = b.pageNumber ↔ a.SamePage b := by
  unfold pageNumber SamePage dirIndex tableIndex
  rw [Fin.ext_iff, Fin.ext_iff, Fin.ext_iff]
  simp only [Fin.ofNat, tableSpan, pageSize, tableSize]
  omega

namespace FlatMap

variable {M : FlatMap} {r s : SpaceId} {va b : VirtAddr} {x : Option (Frame × Perm)}

theorem isSome_set : (M.set s va x r).isSome = (M r).isSome := by
  unfold set
  by_cases h : r = s
  · rw [h, Function.update_self, Option.isSome_map]
  · rw [Function.update_of_ne h]

theorem lookup_set (hl : (M s).isSome = true) :
    (M.set s va x).lookup r b = if r = s ∧ va.SamePage b then x else M.lookup r b := by
  unfold lookup set
  by_cases h : r = s
  · obtain ⟨pages, hpages⟩ := Option.isSome_iff_exists.1 hl
    rw [h, Function.update_self, hpages, Option.map_some, Option.bind_some, Option.bind_some]
    by_cases hb : va.SamePage b
    · rw [if_pos ⟨rfl, hb⟩, VirtAddr.pageNumber_eq_iff.2 hb, Function.update_self]
    · rw [if_neg fun hsame => hb hsame.2, Function.update_of_ne]
      exact fun hsame => hb (VirtAddr.pageNumber_eq_iff.1 hsame.symm)
  · rw [Function.update_of_ne h, if_neg fun hsame => h hsame.1]

/-- There is nothing to set where no space is. -/
theorem set_of_dead (hl : M s = none) : M.set s va x = M := by
  unfold set
  rw [hl, Option.map_none, ← hl]
  exact Function.update_eq_self s M

theorem lookup_create : (M.create s).lookup r b = if r = s then none else M.lookup r b := by
  unfold lookup create
  by_cases h : r = s
  · rw [h, Function.update_self, if_pos rfl]
    rfl
  · rw [Function.update_of_ne h, if_neg h]

theorem lookup_destroy : (M.destroy s).lookup r b = if r = s then none else M.lookup r b := by
  unfold lookup destroy
  by_cases h : r = s
  · rw [h, Function.update_self, if_pos rfl]
    rfl
  · rw [Function.update_of_ne h, if_neg h]

end FlatMap

/-! ## When there is room -/

namespace FramePool

variable {p : FramePool} {f : Frame}

/-- **No frame is found exactly when none is free.** -/
theorem alloc?_eq_none_iff (h : p.Sound) :
    p.alloc? = none ↔ ∀ f, p.manages f = true → p.isAllocated f = true := by
  constructor
  · intro hnone f hf
    have hall : ∀ i, i < p.size → (p.cell i).inUse = true := by
      rw [← firstFree?_eq_none_iff]
      unfold alloc? at hnone
      split at hnone
      · rename_i hzero
        exact firstFree?_eq_none_iff_idle.2 (h.free.symm.trans hzero)
      · split at hnone
        · assumption
        · cases hnone
    obtain ⟨c, hc⟩ := manages_iff.1 hf
    obtain ⟨i, hi, rfl⟩ := Option.map_eq_some_iff.1 hc
    exact isAllocated_iff.2 ⟨_, hc, hall i (index?_lt hi)⟩
  · intro hall
    refine Option.eq_none_iff_forall_ne_some.2 fun taken htaken => ?_
    obtain ⟨-, -, hfree⟩ := alloc?_spec h htaken
    obtain ⟨c, hc, -⟩ := id hfree
    have hused := hall taken.2 (manages_iff.2 ⟨c, hc⟩)
    exact Bool.false_ne_true ((isAllocated_eq_false hfree).symm.trans hused)

theorem allocOwned?_eq_none_iff : p.allocOwned? = none ↔ p.alloc? = none := by
  unfold allocOwned?
  cases p.alloc? <;> simp

/-- A frame in use can be referred to once more unless its count is full. -/
theorem canRetain_eq_false_iff (h : p.isAllocated f = true) :
    p.canRetain f = false ↔ p.refCount f = maxRefs := by
  obtain ⟨i, hi⟩ := Option.isSome_iff_exists.1 h
  have hcount : p.refCount f = (p.cell i).refs := by
    rw [refCount, (usedIndex?_eq_some_iff.1 hi).1]
  simp only [canRetain, hi, hcount, decide_eq_false_iff_not, UInt16.not_lt]
  refine ⟨fun hle => UInt16.le_antisymm ?_ hle, fun heq => heq ▸ UInt16.le_refl _⟩
  rw [UInt16.le_iff_toNat_le]
  exact Nat.le_of_lt_succ (p.cell i).refs.toNat_lt

theorem isAllocated_of_canRetain (h : p.canRetain f = true) : p.isAllocated f = true := by
  unfold canRetain at h
  unfold isAllocated
  split at h
  · rename_i i hi
    rw [hi, Option.isSome_some]
  · cases h

theorem retain?_isSome_of_canRetain (h : p.canRetain f = true) : (p.retain? f).isSome = true := by
  unfold canRetain at h
  unfold retain?
  split at h
  · rename_i i hi
    simp only [hi, if_pos (of_decide_eq_true h), Option.isSome_some]
  · cases h

end FramePool

namespace Memory

variable {m m' : Memory} {M : FlatMap} {pins fresh : List Frame} {r s : SpaceId} {va b : VirtAddr}
  {f : Frame} {perm : Perm} {e : Option PageEntry}

/-! ## When a page cannot be mapped -/

/-- Why the frame cannot be mapped at `va`. -/
inductive Refuses (m : Memory) (s : SpaceId) (f : Frame) (va : VirtAddr) : Prop where
  | misaligned (odd : va.isAligned = false)
  | unused (free : m.pool.isAllocated f = false)
  | saturated (count : m.pool.refCount f = maxRefs)
  | dead (gone : m.directory? s = none)
  /-- A table is missing, and no frame is free for it. -/
  | crowded (table : m.table? s va = none)
      (full : ∀ g, m.pool.manages g = true → m.pool.isAllocated g = true)

theorem tableFor?_eq_none_iff {d : Directory} (hs : m.pool.Sound)
    (hd : m.directory? s = some d) : tableFor? m.pool d va = none ↔
      m.table? s va = none ∧ ∀ g, m.pool.manages g = true → m.pool.isAllocated g = true := by
  rw [← FramePool.alloc?_eq_none_iff hs, ← FramePool.allocOwned?_eq_none_iff, table?, hd,
    Option.bind_some, Option.map_eq_none_iff]
  unfold tableFor?
  cases d.table? va with
  | some t => simp
  | none => cases m.pool.allocOwned? <;> simp

/-- A frame that can be referred to once more still can when a table was added. -/
theorem retain?_isSome_of_tableFor? {d : Directory} {pool : FramePool} {t : PageTable}
    (hs : m.pool.Sound) (hroom : m.pool.canRetain f = true)
    (ht : tableFor? m.pool d va = some (pool, t)) : (pool.retain? f).isSome = true := by
  unfold tableFor? at ht
  split at ht
  · obtain ⟨rfl, -⟩ := Prod.mk.inj (Option.some.inj ht)
    exact FramePool.retain?_isSome_of_canRetain hroom
  split at ht
  · cases ht
  rename_i taken g ha
  obtain ⟨rfl, -⟩ := Prod.mk.inj (Option.some.inj ht)
  obtain ⟨-, hw, hfree⟩ := FramePool.allocOwned?_spec hs ha
  obtain ⟨pool', hr⟩ := Option.isSome_iff_exists.1 (FramePool.retain?_isSome_of_canRetain hroom)
  obtain ⟨c, hc, hu, hlt, -⟩ := FramePool.retain?_spec hs hr
  -- the table is in a frame that was free, so it is not in the one that is mapped
  have hne : f ≠ g := by
    rintro rfl
    have hused := FramePool.isAllocated_of_canRetain hroom
    exact Bool.false_ne_true ((FramePool.isAllocated_eq_false hfree).symm.trans hused)
  have hcell : taken.cell? f = some c := by rw [hw.cell, if_neg hne, hc]
  obtain ⟨pool'', hr'⟩ := FramePool.retain?_isSome hcell hu hlt
  rw [hr']
  rfl

/-- **A page cannot be mapped for one of these reasons and no other.** -/
theorem insert_fails_iff (hs : m.pool.Sound) :
    (∃ err, m.insert s f va perm = .error err) ↔ m.Refuses s f va := by
  constructor
  · rintro ⟨err, herr⟩
    unfold insert at herr
    split at herr
    · rename_i hodd
      exact .misaligned (by simpa using hodd)
    split at herr
    · rename_i hfree
      exact .unused (by simpa using hfree)
    rename_i hused
    have hused : m.pool.isAllocated f = true := by simpa using hused
    split at herr
    · rename_i hfull
      exact .saturated ((FramePool.canRetain_eq_false_iff hused).1 (by simpa using hfull))
    rename_i hroom
    have hroom : m.pool.canRetain f = true := by simpa using hroom
    split at herr
    · rename_i hdead
      exact .dead hdead
    rename_i d hd
    split at herr
    · rename_i htable
      obtain ⟨hmissing, hfull⟩ := (tableFor?_eq_none_iff hs hd).1 htable
      exact .crowded hmissing hfull
    rename_i pool t htable
    split at herr
    · rename_i hlate
      have hsome := retain?_isSome_of_tableFor? hs hroom htable
      rw [hlate] at hsome
      cases hsome
    · cases herr
  · intro hrefuses
    cases hok : m.insert s f va perm with
    | error err => exact ⟨err, rfl⟩
    | ok m' =>
      exfalso
      obtain ⟨haligned, hused, d, pool, t, pool', hd, ht, hr, -⟩ := insert_eq_ok hok
      cases hrefuses with
      | misaligned odd => exact Bool.false_ne_true (odd.symm.trans haligned)
      | unused free => exact Bool.false_ne_true (free.symm.trans hused)
      | saturated count =>
        have hfull := (FramePool.canRetain_eq_false_iff hused).2 count
        simp [insert, haligned, hused, hfull] at hok
      | dead gone => simp [gone] at hd
      | crowded table full => simp [(tableFor?_eq_none_iff hs hd).2 ⟨table, full⟩] at ht

/-! ## Step by step -/

/-- What an attempt to map a page leaves, and the answer: memory as it was if it failed. -/
def attempt (m : Memory) : Except MappingError Memory → Memory × Except MappingError Yield
  | .ok m' => (m', .ok .done)
  | .error err => (m, .error err)

/-- **No step that fails comes after one that changed something.** -/
theorem insertInPlace_eq (hs : m.pool.Sound) :
    m.insertInPlace s f va perm = m.attempt (m.insert s f va perm) := by
  unfold insertInPlace insert
  split
  · rfl
  split
  · rfl
  split
  · rfl
  rename_i hfull
  have hroom : m.pool.canRetain f = true := by simpa using hfull
  cases hd : m.directory? s with
  | none => rfl
  | some d =>
    dsimp only
    cases ht : tableFor? m.pool d va with
    | none => rfl
    | some found =>
      obtain ⟨pool, t⟩ := found
      obtain ⟨pool', hr⟩ := Option.isSome_iff_exists.1 (retain?_isSome_of_tableFor? hs hroom ht)
      dsimp only
      rw [hr]
      -- what was entered for the table is written over
      cases t.find? va <;> simp [attempt, setDirectory, Directory.setTable]

/-! ## Entries that come out as they went in -/

/-- What a lookup makes of an entry. -/
theorem Sets.lookup (h : m.Sets m' s va e) :
    m'.lookup r b = if r = s ∧ va.SamePage b then
      e.bind fun x => if x.isValid then some (x.frame, x.perm) else none
    else m.lookup r b := by
  rw [lookup_eq_find?, lookup_eq_find?, h.entry]
  split <;> rfl

/-- **A page that is mapped shows the frame and the permission**, and the page is present. -/
theorem lookup_of_insert (h : m.Balanced [] fresh) (hperm : perm.bits.toNat ≤ 0xFFF)
    (hi : m.insert s f va perm = .ok m') :
    m'.lookup r b =
      if r = s ∧ va.SamePage b then some (f, perm.union .present) else m.lookup r b := by
  obtain ⟨-, hf, -⟩ := insert_eq_ok hi
  have hfits := h.fits_of_manages (FramePool.manages_of_isAllocated hf)
  have hbits := Nat.lt_succ_of_le hperm
  rw [(insert_sets h hi).lookup, Option.bind_some,
    if_pos (PageEntry.isValid_page hfits hbits), PageEntry.frame_page hfits hbits,
    PageEntry.perm_page hfits hbits]

/-! ## The books, whatever is asked -/

/-- What the numbers of spaces rest on, with the pages `pins` reserved. -/
structure Booked (m : Memory) (pins : List Frame) : Prop where
  books : ∃ fresh, m.Balanced pins fresh
  separate : m.Separate
  numbers : m.spaces.size ≤ m.pool.size

theorem Booked.sound (h : m.Booked pins) : m.pool.Sound := by
  obtain ⟨fresh, hb⟩ := h.books
  exact hb.accounts.sound

/-- There are far fewer frames than numbers. -/
theorem Booked.spaces_lt (h : m.Booked pins) : m.spaces.size < 0x100000000 := by
  obtain ⟨fresh, hb⟩ := h.books
  have hfits : m.pool.base.toNat + m.pool.size * pageSize ≤ 0x100000000 := hb.fits
  have hn := h.numbers
  simp only [pageSize] at hfits
  omega

theorem booked_ofSize {n : Nat} (hn : n ≤ maxFrames) : (ofSize n).Booked [] := by
  have hdirectory := (Kernel.vacant_of_reserved (.fresh n hn)).directory?
  refine ⟨⟨[], Kernel.balanced_of_reserved (.fresh n hn)⟩, fun r _ _ hr => ?_, Nat.zero_le _⟩
  rcases hr with hr | ⟨va, hr⟩
  · rw [root?, hdirectory r] at hr
    cases hr
  · rw [table?, hdirectory r] at hr
    cases hr

/-- Frames came and went, and directories at most went. -/
theorem Booked.of_directories {pins' : List Frame} (h : m.Booked pins)
    (hbooks : ∃ fresh, m'.Balanced pins' fresh) (hextent : m'.pool.extent = m.pool.extent)
    (hsize : m'.spaces.size = m.spaces.size)
    (hd : ∀ s d, m'.directory? s = some d → m.directory? s = some d) : m'.Booked pins' := by
  have hpool : m'.pool.size = m.pool.size := congrArg Prod.snd hextent
  refine ⟨hbooks, h.separate.of_directories hd, ?_⟩
  rw [hsize, hpool]
  exact h.numbers

/-- Only frames came and went. -/
theorem Booked.of_spaces {pins' : List Frame} (h : m.Booked pins)
    (hbooks : ∃ fresh, m'.Balanced pins' fresh) (hextent : m'.pool.extent = m.pool.extent)
    (hspaces : m'.spaces = m.spaces) : m'.Booked pins' := by
  refine h.of_directories hbooks hextent (congrArg Array.size hspaces) fun s d hd => ?_
  rwa [directory?, hspaces] at hd

/-- An entry was set or cleared. -/
theorem Booked.of_sets (h : m.Booked pins) (hsets : m.Sets m' s va e)
    (hbooks : ∃ fresh, m'.Balanced pins fresh) (hextent : m'.pool.extent = m.pool.extent) :
    m'.Booked pins := by
  have hpool : m'.pool.size = m.pool.size := congrArg Prod.snd hextent
  obtain ⟨fresh, hb⟩ := h.books
  refine ⟨hbooks, hsets.separate h.separate hb, ?_⟩
  rw [hsets.size, hpool]
  exact h.numbers

theorem Booked.insert (h : m.Booked pins) (hperm : perm.bits.toNat ≤ 0xFFF)
    (hi : m.insert s f va perm = .ok m') : m'.Booked pins := by
  obtain ⟨fresh, hb⟩ := h.books
  obtain ⟨⟨fresh', -, hb'⟩, hextent⟩ := hb.insert (Nat.lt_succ_of_le hperm) hi
  exact h.of_sets (insert_sets hb hi) ⟨fresh', hb'⟩ hextent

theorem Booked.remove (h : m.Booked pins) (s : SpaceId) (va : VirtAddr) :
    (m.remove s va).Booked pins := by
  obtain ⟨fresh, hb⟩ := h.books
  obtain ⟨⟨fresh', -, hb'⟩, hextent⟩ := hb.remove s va
  exact h.of_sets (remove_sets hb s va) ⟨fresh', hb'⟩ hextent

theorem Booked.destroySpace (h : m.Booked pins) (s : SpaceId) :
    (m.destroySpace s).Booked pins := by
  obtain ⟨fresh, hb⟩ := h.books
  obtain ⟨⟨fresh', -, hb'⟩, hcloses⟩ := hb.destroySpace s
  refine h.of_directories ⟨fresh', hb'⟩ hcloses.extent hcloses.size fun r d hd => ?_
  rw [directory?_destroySpace] at hd
  split at hd
  · cases hd
  · exact hd

theorem spaces_allocPage (ha : m.allocPage = .ok (m', f)) : m'.spaces = m.spaces := by
  unfold Memory.allocPage at ha
  split at ha
  · cases ha
  · obtain ⟨rfl, -⟩ := Prod.mk.inj (Except.ok.inj ha)
    rfl

theorem Booked.allocPage (h : m.Booked pins) (ha : m.allocPage = .ok (m', f)) :
    m'.Booked pins := by
  obtain ⟨fresh, hb⟩ := h.books
  obtain ⟨hb', htouches, -⟩ := allocPage_spec hb ha ⟨0⟩
  exact h.of_spaces ⟨_, hb'⟩ htouches.extent (spaces_allocPage ha)

theorem spaces_freePage (m : Memory) (f : Frame) : (m.freePage f).spaces = m.spaces := by
  unfold Memory.freePage
  split <;> rfl

theorem Booked.freePage (h : m.Booked pins) (f : Frame) : (m.freePage f).Booked pins := by
  obtain ⟨fresh, hb⟩ := h.books
  obtain ⟨⟨fresh', -, hb'⟩, hextent⟩ := hb.freePage f
  exact h.of_spaces ⟨fresh', hb'⟩ hextent (m.spaces_freePage f)

/-! ### New spaces -/

/-- Spaces with directories of their own are no more than there are frames. -/
theorem size_le_of_live (hb : m.Balanced pins fresh) (hseparate : m.Separate)
    (hlive : ∀ i, i < m.spaces.size →
      ∃ r : SpaceId, r.number.toNat = i ∧ (m.directory? r).isSome = true) :
    m.spaces.size ≤ m.pool.size := by
  have hroots : ∀ i, ∃ f, i < m.spaces.size → f ∈ m.pool.frames ∧
      ∃ r : SpaceId, r.number.toNat = i ∧ m.root? r = some f := by
    intro i
    by_cases hi : i < m.spaces.size
    · obtain ⟨r, hr, hd⟩ := hlive i hi
      obtain ⟨d, hd⟩ := Option.isSome_iff_exists.1 hd
      have hroot : m.root? r = some d.frame := by rw [root?, hd, Option.map_some]
      have hmanaged := hb.accounts.managed d.frame
        (List.mem_append_left _ (StructuralIn.mem_references (Or.inl hroot)))
      exact ⟨d.frame, fun _ => ⟨(FramePool.mem_frames hb.accounts.sound).2 hmanaged, r, hr, hroot⟩⟩
    · exact ⟨⟨.ofNat 0⟩, fun hi' => absurd hi' hi⟩
  choose root hroot using hroots
  have hmaps : ∀ i ∈ Finset.range m.spaces.size, root i ∈ m.pool.frames.toFinset := fun i hi =>
    List.mem_toFinset.2 (hroot i (Finset.mem_range.1 hi)).1
  have hinj : Set.InjOn root (Finset.range m.spaces.size) := by
    intro i hi j hj hij
    obtain ⟨-, r, hr, hrf⟩ := hroot i (Finset.mem_range.1 hi)
    obtain ⟨-, t, ht, htf⟩ := hroot j (Finset.mem_range.1 hj)
    rw [hij] at hrf
    rw [← hr, ← ht, hseparate r t _ (Or.inl hrf) (Or.inl htf)]
  calc m.spaces.size = (Finset.range m.spaces.size).card := (Finset.card_range _).symm
    _ ≤ m.pool.frames.toFinset.card := Finset.card_le_card_of_injOn root hmaps hinj
    _ ≤ m.pool.frames.length := List.toFinset_card_le _
    _ = m.pool.size := by rw [FramePool.frames, List.length_map, List.length_range]

/-- When all numbers were in use, the new one is the next, and again all are in use. -/
theorem Numbers.all_live (h : m.Numbers m' s f) (hsize : m'.spaces.size = m.spaces.size + 1)
    (hall : ∀ i, i < m.spaces.size →
      ∃ r : SpaceId, r.number.toNat = i ∧ (m.directory? r).isSome = true) :
    ∀ i, i < m'.spaces.size →
      ∃ r : SpaceId, r.number.toNat = i ∧ (m'.directory? r).isSome = true := by
  have hnext : s.number.toNat = m.spaces.size := by
    have hlt := lt_of_directory? h.added
    have hle : m.spaces.size ≤ s.number.toNat := by
      refine Nat.le_of_not_lt fun hlt' => ?_
      obtain ⟨r, hr, hd⟩ := hall _ hlt'
      exact SpaceId.number_ne (h.ne_of_isSome hd) hr
    omega
  intro i hi
  by_cases hold : i < m.spaces.size
  · obtain ⟨r, hr, hd⟩ := hall i hold
    exact ⟨r, hr, by rw [h.others r (h.ne_of_isSome hd), hd]⟩
  · exact ⟨s, by omega, by rw [h.added, Option.isSome_some]⟩

theorem Booked.createSpace (h : m.Booked pins) (hc : m.createSpace = .ok (m', s)) :
    m'.Booked pins := by
  obtain ⟨fresh, hb⟩ := h.books
  obtain ⟨hb', f, hopens, -⟩ := createSpace_fresh hb h.spaces_lt hc
  have hpool : m'.pool.size = m.pool.size := congrArg Prod.snd hopens.extent
  have hseparate := h.separate.createSpace hb h.spaces_lt hc
  refine ⟨⟨fresh, hb'⟩, hseparate, ?_⟩
  rcases hopens.size with hsize | ⟨hsize, hall⟩
  · rw [hsize, hpool]
    exact h.numbers
  · exact size_le_of_live hb' hseparate (hopens.toNumbers.all_live hsize hall)

/-- What every operation behind a command keeps, the command keeps. -/
theorem carryOut_invariant {I : Memory → Prop} (hs : m.pool.Sound) (h : I m)
    (create : ∀ m' s, m.createSpace = .ok (m', s) → I m')
    (destroy : ∀ s, I (m.destroySpace s))
    (alloc : ∀ m' f, m.allocPage = .ok (m', f) → I m')
    (give : ∀ f, I (m.freePage f))
    (map : ∀ s f va perm m', perm.bits.toNat ≤ 0xFFF → m.insert s f va perm = .ok m' → I m')
    (unmap : ∀ s va, I (m.remove s va)) {c : Command} (hc : c.Fits) : I (m.carryOut c).1 := by
  unfold Memory.carryOut
  cases c with
  | createSpace =>
    dsimp only
    split
    · rename_i hok
      exact create _ _ hok
    · exact h
  | destroySpace s => exact destroy s
  | allocPage =>
    dsimp only
    split
    · rename_i hok
      exact alloc _ _ hok
    · exact h
  | freePage f => exact give f
  | insert s f va perm =>
    dsimp only
    rw [insertInPlace_eq hs]
    cases hi : m.insert s f va perm with
    | ok m' => exact map s f va perm m' hc hi
    | error err => exact h
  | remove s va => exact unmap s va

theorem Booked.carryOut (h : m.Booked pins) {c : Command} (hc : c.Fits) :
    (m.carryOut c).1.Booked pins :=
  carryOut_invariant h.sound h (fun _ _ => h.createSpace) h.destroySpace (fun _ _ => h.allocPage)
    h.freePage (fun _ _ _ _ _ hperm => h.insert hperm) h.remove hc

/-! ## Memory in order -/

/-- What two levels of tables need to be one flat map. -/
structure Orderly (m : Memory) : Prop extends m.Booked [] where
  valid : ∀ s va x, m.find? s va = some x → x.isValid = true

theorem orderly_ofSize {n : Nat} (hn : n ≤ maxFrames) : (ofSize n).Orderly := by
  have hdirectory := (Kernel.vacant_of_reserved (.fresh n hn)).directory?
  refine ⟨booked_ofSize hn, fun s _ _ hs => ?_⟩
  rw [find?, hdirectory s] at hs
  cases hs

/-- Directories at most went, and what is in those that stayed is what was there. -/
theorem Orderly.of_directories (h : m.Orderly) (hbooked : m'.Booked [])
    (hd : ∀ s d, m'.directory? s = some d → m.directory? s = some d) : m'.Orderly := by
  refine ⟨hbooked, fun s va x hx => ?_⟩
  obtain ⟨d, hds, hfind⟩ := Option.bind_eq_some_iff.1 hx
  exact h.valid s va x (Option.bind_eq_some_iff.2 ⟨d, hd s d hds, hfind⟩)

/-- An entry was set or cleared. -/
theorem Orderly.of_sets (h : m.Orderly) (hbooked : m'.Booked []) (hsets : m.Sets m' s va e)
    (he : ∀ x, e = some x → x.isValid = true) : m'.Orderly := by
  refine ⟨hbooked, fun r b x hx => ?_⟩
  rw [hsets.entry] at hx
  split at hx
  · exact he x hx
  · exact h.valid r b x hx

theorem Orderly.insert (h : m.Orderly) (hperm : perm.bits.toNat ≤ 0xFFF)
    (hi : m.insert s f va perm = .ok m') : m'.Orderly := by
  obtain ⟨fresh, hb⟩ := h.books
  obtain ⟨-, hf, -⟩ := insert_eq_ok hi
  have hfits := hb.fits_of_manages (FramePool.manages_of_isAllocated hf)
  refine h.of_sets (h.toBooked.insert hperm hi) (insert_sets hb hi) fun x hx => ?_
  obtain rfl := Option.some.inj hx
  exact PageEntry.isValid_page hfits (Nat.lt_succ_of_le hperm)

theorem Orderly.remove (h : m.Orderly) (s : SpaceId) (va : VirtAddr) : (m.remove s va).Orderly := by
  obtain ⟨fresh, hb⟩ := h.books
  exact h.of_sets (h.toBooked.remove s va) (remove_sets hb s va) fun x hx => nomatch hx

theorem Orderly.destroySpace (h : m.Orderly) (s : SpaceId) : (m.destroySpace s).Orderly := by
  refine h.of_directories (h.toBooked.destroySpace s) fun r d hd => ?_
  rw [directory?_destroySpace] at hd
  split at hd
  · cases hd
  · exact hd

theorem Orderly.allocPage (h : m.Orderly) (ha : m.allocPage = .ok (m', f)) : m'.Orderly := by
  refine h.of_directories (h.toBooked.allocPage ha) fun s d hd => ?_
  rwa [directory?, spaces_allocPage ha] at hd

theorem Orderly.freePage (h : m.Orderly) (f : Frame) : (m.freePage f).Orderly := by
  refine h.of_directories (h.toBooked.freePage f) fun s d hd => ?_
  rwa [directory?, m.spaces_freePage f] at hd

theorem Orderly.createSpace (h : m.Orderly) (hc : m.createSpace = .ok (m', s)) : m'.Orderly := by
  obtain ⟨fresh, hb⟩ := h.books
  obtain ⟨-, f, hopens, -⟩ := createSpace_fresh hb h.spaces_lt hc
  refine ⟨h.toBooked.createSpace hc, fun r b x hx => ?_⟩
  by_cases hr : r = s
  · rw [hr, hopens.toNumbers.find?_eq_none] at hx
    cases hx
  · exact h.valid r b x ((find?_congr (hopens.others r hr) b).symm.trans hx)

/-- **Every command leaves memory in order.** -/
theorem Orderly.carryOut (h : m.Orderly) {c : Command} (hc : c.Fits) :
    (m.carryOut c).1.Orderly :=
  carryOut_invariant h.sound h (fun _ _ => h.createSpace) h.destroySpace (fun _ _ => h.allocPage)
    h.freePage (fun _ _ _ _ _ hperm => h.insert hperm) h.remove hc

/-! ## The refinement -/

/-- Whatever is looked up in memory is in the flat map. -/
structure Refines (m : Memory) (M : FlatMap) : Prop where
  live : ∀ s, (M s).isSome = (m.directory? s).isSome
  lookup : ∀ s va, m.lookup s va = M.lookup s va

theorem Refines.congr (h : m.Refines M) (hspaces : m'.spaces = m.spaces) : m'.Refines M := by
  have hdirectory : ∀ s, m'.directory? s = m.directory? s := fun s => by
    rw [directory?, directory?, hspaces]
  exact ⟨fun s => by rw [h.live, hdirectory],
    fun s va => by rw [lookup_congr (hdirectory s), h.lookup]⟩

/-- A lookup that changes at one page of a live space is an entry of the flat map that is set. -/
theorem Refines.set (h : m.Refines M) (hkeeps : m.Keeps m') (hs : (m.directory? s).isSome = true)
    {x : Option (Frame × Perm)}
    (hx : ∀ r b, m'.lookup r b = if r = s ∧ va.SamePage b then x else m.lookup r b) :
    m'.Refines (M.set s va x) := by
  refine ⟨fun r => ?_, fun r b => ?_⟩
  · rw [FlatMap.isSome_set, h.live, hkeeps.live]
  · rw [hx, FlatMap.lookup_set ((h.live s).trans hs), h.lookup]

theorem Refines.insert (h : m.Refines M) (ho : m.Orderly) (hperm : perm.bits.toNat ≤ 0xFFF)
    (hi : m.insert s f va perm = .ok m') :
    m'.Refines (M.set s va (some (f, perm.union .present))) := by
  obtain ⟨fresh, hb⟩ := ho.books
  obtain ⟨-, -, d, -, -, -, hd, -⟩ := insert_eq_ok hi
  exact h.set (.insert hi) (by rw [hd, Option.isSome_some]) fun r b => lookup_of_insert hb hperm hi

theorem Refines.remove (h : m.Refines M) (ho : m.Orderly) (s : SpaceId) (va : VirtAddr) :
    (m.remove s va).Refines (M.set s va none) := by
  obtain ⟨fresh, hb⟩ := ho.books
  by_cases hs : (m.directory? s).isSome = true
  · exact h.set (.remove m s va) hs fun r b => (remove_sets hb s va).lookup
  · -- there is no such space
    have hdead : m.directory? s = none := Option.not_isSome_iff_eq_none.1 hs
    have hM : M s = none := Option.not_isSome_iff_eq_none.1 fun hM => hs ((h.live s).symm.trans hM)
    rw [FlatMap.set_of_dead hM, Memory.remove, hdead]
    exact h

theorem Refines.createSpace (h : m.Refines M) (ho : m.Orderly)
    (hc : m.createSpace = .ok (m', s)) : m'.Refines (M.create s) := by
  obtain ⟨fresh, hb⟩ := ho.books
  obtain ⟨-, f, hopens, -⟩ := createSpace_fresh hb ho.spaces_lt hc
  refine ⟨fun r => ?_, fun r b => ?_⟩
  · by_cases hr : r = s
    · rw [hr, FlatMap.create, Function.update_self, hopens.added]
      rfl
    · rw [FlatMap.create, Function.update_of_ne hr, h.live, hopens.others r hr]
  · rw [FlatMap.lookup_create]
    split
    · rename_i hr
      rw [hr, hopens.toNumbers.lookup_eq_none]
    · rename_i hr
      rw [lookup_congr (hopens.others r hr), h.lookup]

theorem Refines.destroySpace (h : m.Refines M) (s : SpaceId) :
    (m.destroySpace s).Refines (M.destroy s) := by
  refine ⟨fun r => ?_, fun r b => ?_⟩
  · rw [directory?_destroySpace, FlatMap.destroy]
    split
    · rename_i hr
      rw [hr, Function.update_self]
      rfl
    · rename_i hr
      rw [Function.update_of_ne hr, h.live]
  · rw [FlatMap.lookup_destroy, Memory.lookup, directory?_destroySpace]
    split
    · rfl
    · exact h.lookup r b

/-- **Every command keeps memory and the flat map together.** -/
theorem Refines.carryOut (h : m.Refines M) (ho : m.Orderly) {c : Command} (hc : c.Fits) :
    (m.carryOut c).1.Refines (M.follow c (m.carryOut c).2) := by
  unfold Memory.carryOut
  cases c with
  | createSpace =>
    dsimp only
    split
    · rename_i hok
      exact h.createSpace ho hok
    · exact h
  | destroySpace s => exact h.destroySpace s
  | allocPage =>
    dsimp only
    split
    · rename_i hok
      exact h.congr (spaces_allocPage hok)
    · exact h
  | freePage f => exact h.congr (m.spaces_freePage f)
  | insert s f va perm =>
    dsimp only
    rw [insertInPlace_eq ho.sound]
    cases hi : m.insert s f va perm with
    | ok m' => exact h.insert ho hc hi
    | error err => exact h
  | remove s va => exact h.remove ho s va

theorem Refines.serve : ∀ (commands : List Command) {m : Memory} {M : FlatMap}, m.Orderly →
    m.Refines M → (∀ c ∈ commands, c.Fits) →
      (m.serve M commands).1.Orderly ∧ (m.serve M commands).1.Refines (m.serve M commands).2
  | [], _, _, ho, h, _ => ⟨ho, h⟩
  | c :: rest, _, _, ho, h, hfits =>
    have hc := hfits c List.mem_cons_self
    serve rest (ho.carryOut hc) (h.carryOut ho hc) fun c' hc' =>
      hfits c' (List.mem_cons_of_mem c hc')

/-! ## The law -/

/-- Every entry shows, so where nothing shows there is none to remove. -/
theorem Orderly.remove_of_lookup (h : m.Orderly) (hnone : m.lookup s va = none) :
    m.remove s va = m := by
  rcases m.remove_cases s va with ⟨hsame, -⟩ | ⟨d, t, x, hd, ht, hx, -⟩
  · exact hsame
  · have hfind : m.find? s va = some x := by
      rw [find?, hd, Option.bind_some, Directory.find?, ht, Option.bind_some, hx]
    rw [lookup_eq_find?, hfind, Option.bind_some, if_pos (h.valid s va x hfind)] at hnone
    cases hnone

theorem carryOut_failed (hs : m.pool.Sound) {c : Command} {err : MappingError}
    (h : (m.carryOut c).2 = .error err) :
    (m.carryOut c).1 = m ∧ M.follow c (.error err) = M := by
  unfold Memory.carryOut at h ⊢
  cases c with
  | destroySpace | freePage | remove => cases h
  | createSpace | allocPage =>
    dsimp only at h ⊢
    split at h
    · cases h
    · exact ⟨rfl, rfl⟩
  | insert s f va perm =>
    dsimp only at h ⊢
    rw [insertInPlace_eq hs] at h ⊢
    cases hi : m.insert s f va perm with
    | ok m' =>
      rw [hi] at h
      cases h
    | error err' => exact ⟨rfl, rfl⟩

/-- Memory is the flat map, and what it answers depends on that map and on which frames are in
  use. -/
structure Flat (m : Memory) (M : FlatMap) : Prop extends m.Refines M where
  /-- Only a number that stands for no space is given out. -/
  created : ∀ m' s, m.createSpace = .ok (m', s) → M s = none
  /-- Where nothing is mapped there is nothing to remove. -/
  absent : ∀ s va, M.lookup s va = none → m.remove s va = m
  refuses : ∀ s f va perm, (∃ err, m.insert s f va perm = .error err) ↔ m.Refuses s f va
  /-- Step by step it comes to the same. -/
  stepwise : ∀ s f va perm, m.insertInPlace s f va perm = m.attempt (m.insert s f va perm)
  /-- A command that fails leaves everything. -/
  failed : ∀ c err, (m.carryOut c).2 = .error err →
    (m.carryOut c).1 = m ∧ M.follow c (.error err) = M

/-- **Two levels of tables are one flat map**, whatever memory is asked to do. -/
theorem tables_flat {n : Nat} (hn : n ≤ maxFrames) (commands : List Command)
    (hfits : ∀ c ∈ commands, c.Fits) :
    ((ofSize n).serve .empty commands).1.Flat ((ofSize n).serve .empty commands).2 := by
  have hempty : (ofSize n).Refines .empty := by
    have hdirectory := (Kernel.vacant_of_reserved (.fresh n hn)).directory?
    refine ⟨fun s => ?_, fun s va => ?_⟩
    · rw [hdirectory]
      rfl
    · rw [Memory.lookup, hdirectory]
      rfl
  obtain ⟨ho, h⟩ := Refines.serve commands (orderly_ofSize hn) hempty hfits
  obtain ⟨fresh, hb⟩ := ho.books
  refine ⟨h, fun m' s hc => ?_, fun s va hnone => ?_, fun s f va perm => ?_,
    fun s f va perm => ?_, fun c err herr => ?_⟩
  · obtain ⟨-, f, hopens, -⟩ := createSpace_fresh hb ho.spaces_lt hc
    have hlive := h.live s
    rw [hopens.unused] at hlive
    exact Option.isNone_iff_eq_none.1 (Option.isSome_eq_false_iff.1 hlive)
  · exact ho.remove_of_lookup ((h.lookup s va).trans hnone)
  · exact insert_fails_iff ho.sound
  · exact insertInPlace_eq ho.sound
  · exact carryOut_failed ho.sound herr

/-- A space ends and its number is used again, and some commands fail. -/
def recycling : List Command :=
  [.createSpace, .allocPage, .insert ⟨0⟩ ⟨.ofNat 0x401000⟩ (.ofNat 0x800000) ⟨7⟩,
    .insert ⟨0⟩ ⟨.ofNat 0x401000⟩ (.ofNat 0x800001) ⟨7⟩,
    .insert ⟨0⟩ ⟨.ofNat 0x400000⟩ (.ofNat 0x900000) ⟨5⟩, .freePage ⟨.ofNat 0x401000⟩,
    .destroySpace ⟨0⟩, .createSpace, .insert ⟨1⟩ ⟨.ofNat 0x400000⟩ (.ofNat 0x800000) ⟨7⟩,
    .remove ⟨0⟩ (.ofNat 0x800000)]

theorem tables_flat_recycling :
    ((ofSize 8).serve .empty recycling).1.Flat ((ofSize 8).serve .empty recycling).2 :=
  tables_flat (by decide) recycling (by decide)

example : ((ofSize 8).serve .empty (recycling.take 3)).1.lookup ⟨0⟩ (.ofNat 0x800FFF) =
    some (⟨.ofNat 0x401000⟩, ⟨7⟩) := by decide +kernel

end Memory

end Exokernel
