/-
  What programs store in their pages.

  A program stores bytes through its space whenever it likes, and the kernel takes no part.  A
  store writes over the contents of frames in use.  It moves no count, no table and no entry, so
  the books stay balanced, however programs use their pages.

  A copy goes page by page.  One that stays in a page is one step of it: the frame behind the
  page is written, or read, at the offset of the address.  So what is read depends on the frame
  and the offset alone, and it makes no difference through which mapping.
-/
import Exokernel.Memory.Copy
import Exokernel.Proofs.Spaces

namespace Exokernel

namespace FramePool

variable {p p' : FramePool} {f g : Frame} {off : Nat} {bytes : Array UInt8}

/-- Writing changes the contents of one frame in use. -/
theorem write?_spec (hs : p.Sound) (h : p.write? f off bytes = some p') :
    ∃ c, p.cell? f = some c ∧ c.inUse = true ∧ p'.Sound ∧
      p.Rewrites p' f { c with page := c.page.write off bytes } := by
  obtain ⟨i, hi, rfl⟩ := Option.map_eq_some_iff.1 h
  obtain ⟨hx, hu⟩ := usedIndex?_eq_some_iff.1 hi
  refine ⟨p.cell i, ?_, hu, hs.update (index?_lt hx) rfl, rewrites_update hx _⟩
  rw [cell?, hx, Option.map_some]

theorem write?_isSome (h : p.isAllocated f = true) (off : Nat) (bytes : Array UInt8) :
    ∃ p', p.write? f off bytes = some p' := by
  obtain ⟨i, hi⟩ := Option.isSome_iff_exists.1 h
  exact ⟨_, Option.map_eq_some_iff.2 ⟨i, hi, rfl⟩⟩

theorem Accounts.write {held fresh : List Frame} (h : p.Accounts held fresh)
    (hw : p.write? f off bytes = some p') : p'.Accounts held fresh := by
  obtain ⟨c, hc, -, hs, hrewrites⟩ := write?_spec h.sound hw
  exact h.rewrite hs hrewrites (h.counted f c hc) (fun g _ => ⟨rfl, Iff.rfl⟩)
    (manages_iff.2 ⟨c, hc⟩)

theorem page?_write (hs : p.Sound) (hw : p.write? f off bytes = some p') (g : Frame) :
    p'.page? g = if g = f then (p.page? f).map fun page => page.write off bytes
      else p.page? g := by
  obtain ⟨c, hc, hu, -, hrewrites⟩ := write?_spec hs hw
  rw [page?_eq, page?_eq, page?_eq, hrewrites.cell g]
  by_cases hg : g = f
  · simp [hg, hc, hu, Option.filter]
  · rw [if_neg hg, if_neg hg]

end FramePool

namespace Memory

variable {m m' : Memory} {pins fresh : List Frame} {r s : SpaceId} {va b : VirtAddr} {f g : Frame}
  {perm : Perm} {data : Array UInt8} {page : Page} {len off : Nat}

/-! ## The books -/

theorem Balanced.writeFrom (h : m.Balanced pins fresh) (s : SpaceId) (va : VirtAddr)
    (data : Array UInt8) (done : Nat) : (m.writeFrom s va data done).1.Balanced pins fresh := by
  fun_induction m.writeFrom s va data done with
  | case1 | case2 | case3 => exact h
  | case4 m done _ cur _ f _ _ n pool hw ih =>
    obtain ⟨_, -, -, -, hrewrites⟩ := FramePool.write?_spec h.accounts.sound hw
    exact ih ⟨h.accounts.write hw, hrewrites.extent ▸ h.fits⟩
  | case5 => exact h

/-- Programs write into pages, and have no part in which spaces there are. -/
theorem Keeps.writeFrom (m : Memory) (s : SpaceId) (va : VirtAddr) (data : Array UInt8)
    (done : Nat) : m.Keeps (m.writeFrom s va data done).1 := by
  fun_induction m.writeFrom s va data done with
  | case1 | case2 | case3 => exact .refl _
  | case4 m _ _ _ _ _ _ _ _ _ _ ih => exact (Keeps.pool m _).trans ih
  | case5 => exact .refl _

theorem spaces_writeFrom (m : Memory) (s : SpaceId) (va : VirtAddr) (data : Array UInt8)
    (done : Nat) : (m.writeFrom s va data done).1.spaces = m.spaces := by
  fun_induction m.writeFrom s va data done with
  | case1 | case2 | case3 => rfl
  | case4 _ _ _ _ _ _ _ _ _ _ _ ih => exact ih
  | case5 => rfl

/-- Which frames there are does not change either. -/
theorem extent_writeFrom (h : m.Balanced pins fresh) (s : SpaceId) (va : VirtAddr)
    (data : Array UInt8) (done : Nat) :
    (m.writeFrom s va data done).1.pool.extent = m.pool.extent := by
  fun_induction m.writeFrom s va data done with
  | case1 | case2 | case3 => rfl
  | case4 m done _ cur _ f _ _ n pool hw ih =>
    obtain ⟨_, -, -, -, hrewrites⟩ := FramePool.write?_spec h.accounts.sound hw
    refine (ih ⟨h.accounts.write hw, hrewrites.extent ▸ h.fits⟩).trans hrewrites.extent
  | case5 => rfl

theorem directory?_of_spaces (h : m'.spaces = m.spaces) (s : SpaceId) :
    m'.directory? s = m.directory? s := by
  unfold directory?
  rw [h]

/-- Memory with the same spaces maps the same pages. -/
theorem lookup_of_spaces (h : m'.spaces = m.spaces) (s : SpaceId) (va : VirtAddr) :
    m'.lookup s va = m.lookup s va := by
  unfold lookup
  rw [directory?_of_spaces h]

/-! ## Within a page -/

/-- Behind every mapping there is a page. -/
theorem Balanced.exists_page (h : m.Balanced pins []) (hl : m.lookup s va = some (f, perm)) :
    ∃ page, m.pool.page? f = some page := by
  have hused := h.isAllocated_of_lookup hl
  obtain ⟨c, hc, -⟩ := FramePool.isAllocated_iff.1 hused
  refine ⟨c.page, ?_⟩
  rw [FramePool.page?_of_isAllocated hused, FramePool.stored?, hc, Option.map_some]

theorem pageAt_eq (hl : m.lookup s va = some (f, perm)) (hp : m.pool.page? f = some page) :
    m.pageAt s va = .ok (f, page) := by
  unfold pageAt
  rw [hl]
  simp only [hp]

/-- The first of the bytes to copy is at the address itself. -/
theorem add?_zero (va : VirtAddr) : va.add? 0 = some va := by
  unfold VirtAddr.add?
  rw [Nat.add_zero, if_pos va.toNat_lt, VirtAddr.ofNat_toNat]

theorem chunk_of_fits (h : va.offset + len ≤ pageSize) : chunk va len = len := by
  unfold chunk
  omega

/-- **A read that stays in a page** finds what is in the frame. -/
theorem readBytes_of_lookup (hl : m.lookup s va = some (f, perm))
    (hp : m.pool.page? f = some page) (hfits : va.offset + len ≤ pageSize) :
    m.readBytes s va len = ⟨page.read va.offset len, none⟩ := by
  unfold readBytes
  rw [readFrom]
  by_cases hpos : 0 < len
  · rw [if_pos hpos, add?_zero]
    simp only [pageAt_eq hl hp, Nat.sub_zero, chunk_of_fits hfits, Nat.zero_add]
    rw [readFrom, if_neg (Nat.lt_irrefl len), Array.empty_append]
  · have hempty : page.read va.offset len = #[] := by
      apply Array.eq_empty_of_size_eq_zero
      rw [Page.size_read]
      omega
    rw [if_neg hpos, hempty]

/-- From `m` to `m'`, `data` is stored from `off` on in the frame `f`. -/
structure Stores (m m' : Memory) (f : Frame) (off : Nat) (data : Array UInt8) : Prop where
  spaces : m'.spaces = m.spaces
  page : m'.pool.page? f = (m.pool.page? f).map fun page => page.write off data
  others : ∀ g, g ≠ f → m'.pool.page? g = m.pool.page? g

/-- **A write that stays in a page** changes what is in the frame, and nothing stops it. -/
theorem writeBytes_of_lookup (h : m.Balanced pins []) (hl : m.lookup s va = some (f, perm))
    (hpos : 0 < data.size) (hfits : va.offset + data.size ≤ pageSize) :
    (m.writeBytes s va data).2 = none ∧
      m.Stores (m.writeBytes s va data).1 f va.offset data := by
  obtain ⟨page, hpage⟩ := h.exists_page hl
  obtain ⟨pool, hw⟩ := FramePool.write?_isSome (h.isAllocated_of_lookup hl) va.offset data
  have hwhole : data.extract 0 data.size = data := Array.extract_size
  have hafter := FramePool.page?_write h.accounts.sound hw
  unfold writeBytes
  rw [writeFrom, if_pos hpos, add?_zero]
  simp only [pageAt_eq hl hpage, Nat.sub_zero, chunk_of_fits hfits, Nat.zero_add, hwhole, hw]
  rw [writeFrom, if_neg (Nat.lt_irrefl data.size)]
  refine ⟨rfl, rfl, ?_, fun g hg => ?_⟩
  · show pool.page? f = _
    rw [hafter, if_pos rfl]
  · show pool.page? g = _
    rw [hafter, if_neg hg]

/-- Without data there is nothing to store, wherever. -/
theorem writeBytes_empty (m : Memory) (s : SpaceId) (va : VirtAddr) :
    m.writeBytes s va #[] = (m, none) := by
  unfold writeBytes
  rw [writeFrom]
  exact if_neg (Nat.lt_irrefl 0)

theorem readBytes_zero (m : Memory) (s : SpaceId) (va : VirtAddr) :
    m.readBytes s va 0 = ⟨#[], none⟩ := by
  unfold readBytes
  rw [readFrom]
  exact if_neg (Nat.lt_irrefl 0)

/-- What was stored is read back through every page in the same frame. -/
theorem Stores.readBytes_self (hst : m.Stores m' f off data) (h : m.Balanced pins [])
    (hl : m.lookup r b = some (f, perm)) (hb : b.offset = off)
    (hfits : off + data.size ≤ pageSize) :
    (m'.readBytes r b data.size).complete = .ok data := by
  obtain ⟨page, hpage⟩ := h.exists_page hl
  have hafter := hst.page
  rw [hpage, Option.map_some] at hafter
  rw [readBytes_of_lookup ((lookup_of_spaces hst.spaces r b).trans hl) hafter (by omega), hb]
  exact congrArg Except.ok (Page.read_write page off data hfits)

/-- A page in another frame reads as before. -/
theorem Stores.readBytes_of_ne (hst : m.Stores m' f off data) (h : m.Balanced pins [])
    (hl : m.lookup r b = some (g, perm)) (hg : g ≠ f) (hfits : b.offset + len ≤ pageSize) :
    m'.readBytes r b len = m.readBytes r b len := by
  obtain ⟨page, hpage⟩ := h.exists_page hl
  rw [readBytes_of_lookup ((lookup_of_spaces hst.spaces r b).trans hl)
    ((hst.others g hg).trans hpage) hfits, readBytes_of_lookup hl hpage hfits]

end Memory

end Exokernel
