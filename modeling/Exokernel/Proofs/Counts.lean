/-
  What becomes of the counts when a page is mapped.

  To map a page is to set one entry.  The frame that comes has a reference more, and the one that
  was there has one less; if the two are the same frame, nothing changes.  A table that is missing
  is added, and that takes a frame, too, but one that was free.  So among the frames in use only
  those two counts can move.  `count_setEntry` is this equation, without a case for who maps what,
  and each law about references is read off it.

  Frames are taken before any is given back, so a fresh page needs a free frame even if the page
  that it replaces is about to become free.
-/
import Exokernel.Proofs.Commit
import Exokernel.Proofs.FlatMap
import Exokernel.Proofs.Growth

namespace Exokernel

/-! ## How many frames are free -/

namespace FramePool

variable {p p' : FramePool} {f : Frame}

theorem alloc?_eq_none_iff_idle (h : p.Sound) : p.alloc? = none ↔ p.idle = 0 := by
  have hfree := h.free
  unfold alloc?
  by_cases hzero : p.freeCount = 0
  · rw [if_pos hzero]
    exact iff_of_true rfl (hfree.symm.trans hzero)
  · rw [if_neg hzero]
    obtain ⟨i, hi⟩ := Option.ne_none_iff_exists'.1 fun hnone =>
      hzero (hfree.trans (firstFree?_eq_none_iff_idle.1 hnone))
    rw [hi]
    exact iff_of_false (fun h => nomatch h) fun h => hzero (hfree.trans h)

/-- Taking a frame leaves one less. -/
theorem idle_alloc (h : p.Sound) (ha : p.alloc? = some (p', f)) : p'.idle + 1 = p.idle := by
  have hs' := (alloc?_spec h ha).1
  rw [← hs'.free, ← h.free]
  unfold alloc? at ha
  split at ha
  · cases ha
  rename_i hpos
  split at ha
  · cases ha
  obtain ⟨rfl, -⟩ := Prod.mk.inj (Option.some.inj ha)
  show p.freeCount - 1 + 1 = p.freeCount
  omega

end FramePool

namespace Memory

variable {m m' : Memory} {pins fresh : List Frame} {r s : SpaceId} {va b : VirtAddr}
  {f g : Frame} {perm p : Perm} {word : UInt32}

/-! ## The count of a frame -/

/-- The pool counts a frame as often as something refers to it, whether it manages the frame or
  not. -/
theorem Balanced.refCount (h : m.Balanced pins fresh) (f : Frame) :
    (m.pool.refCount f).toNat = m.references.count f + pins.count f := by
  rw [← List.count_append]
  cases hm : m.pool.manages f with
  | true =>
    obtain ⟨c, hc⟩ := FramePool.manages_iff.1 hm
    rw [FramePool.refCount_of_cell? hc]
    exact (h.accounts.counted f c hc).1
  | false =>
    have hnot : f ∉ m.references ++ pins := fun hf =>
      Bool.false_ne_true (hm.symm.trans (h.accounts.managed f hf))
    rw [List.count_eq_zero.2 hnot, FramePool.refCount, FramePool.index?, hm]
    rfl

/-- A frame that was in use goes out of use when its last reference is dropped. -/
theorem Balanced.isAllocated_iff_pos (h : m.Balanced pins []) (f : Frame) :
    m.pool.isAllocated f = true ↔ 0 < (m.pool.refCount f).toNat := by
  rw [h.refCount, ← List.count_append, List.count_pos_iff]
  exact h.accounts.isAllocated_iff f

/-- **Setting an entry** moves the counts of what comes and of what was there. -/
theorem count_setEntry {d : Directory} {pool : FramePool} {t : PageTable} (hs : m.pool.Sound)
    (hd : m.directory? s = some d) (ht : tableFor? m.pool d va = some (pool, t))
    (hg : m.pool.isAllocated g = true) (e : Option PageEntry) :
    (m.setDirectory s (some (d.setTable va (t.set va e)))).references.count g +
        (PageEntry.references (m.find? s va)).count g =
      m.references.count g + (PageEntry.references e).count g := by
  have hnew := (tableFor?_frame hs ht).2
  rw [find?, hd, Option.bind_some, Directory.find?]
  unfold tableFor? at ht
  cases hold : d.table? va with
  | some t' =>
    rw [hold] at ht
    obtain ⟨-, rfl⟩ := Prod.mk.inj (Option.some.inj ht)
    obtain ⟨rest, hrefs, hset⟩ := references_setEntry hd hold
    rw [Option.bind_some, hrefs.count_eq, (hset e).count_eq, List.count_append, List.count_append]
    omega
  | none =>
    have hfree := hnew hold
    rw [hold] at ht
    simp only at ht
    split at ht
    · cases ht
    rename_i q table ha
    obtain ⟨-, rfl⟩ := Prod.mk.inj (Option.some.inj ht)
    have hne : table ≠ g := by
      rintro rfl
      exact Bool.false_ne_true (hfree.symm.trans hg)
    have hempty : (PageEntry.references none).count g = 0 := rfl
    rw [Option.bind_none, hempty, (references_setEntry_new hd hold table e).count_eq,
      List.count_append, List.count_cons_of_ne hne]
    omega

/-- **Mapping a page** moves the counts of the frame and of the one that was mapped there. -/
theorem count_insert (h : m.Balanced pins fresh) (hperm : perm.bits.toNat < 4096)
    (hi : m.insert s f va perm = .ok m') (hg : m.pool.isAllocated g = true) :
    m'.references.count g + (PageEntry.references (m.find? s va)).count g =
      m.references.count g + [f].count g := by
  obtain ⟨-, hf, d, pool, t, pool', hd, ht, -, rfl⟩ := insert_eq_ok hi
  have hframe : PageEntry.references (some (.page f.addr perm)) = [f] := by
    show [(PageEntry.page f.addr perm).frame] = [f]
    rw [PageEntry.frame_page (h.fits_of_manages (FramePool.manages_of_isAllocated hf)) hperm]
  rw [← hframe]
  exact count_setEntry h.accounts.sound hd ht hg _

/-- The same equation for what the pool counts. -/
theorem refCount_insert (h : m.Balanced pins fresh) (hperm : perm.bits.toNat < 4096)
    (hi : m.insert s f va perm = .ok m') (hg : m.pool.isAllocated g = true) :
    (m'.pool.refCount g).toNat + (PageEntry.references (m.find? s va)).count g =
      (m.pool.refCount g).toNat + [f].count g := by
  obtain ⟨⟨fresh', -, hb⟩, -⟩ := h.insert hperm hi
  have hcount := count_insert h hperm hi hg
  rw [hb.refCount, h.refCount]
  omega

theorem references_of_lookup (h : m.lookup s va = some (g, p)) :
    PageEntry.references (m.find? s va) = [g] := by
  obtain ⟨x, hx, hf⟩ := find?_of_lookup h
  rw [hx, ← hf]
  rfl

/-- From `m` to `m'`, a reference to `g` was dropped, and the frame is free if it was the last. -/
structure Drops (m m' : Memory) (g : Frame) : Prop where
  count : (m'.pool.refCount g).toNat + 1 = (m.pool.refCount g).toNat
  freed : m'.pool.isAllocated g = false ↔ m.pool.refCount g = 1

theorem drops_of_count (h : m'.Balanced pins [])
    (hcount : (m'.pool.refCount g).toNat + 1 = (m.pool.refCount g).toNat) : m.Drops m' g := by
  refine ⟨hcount, ?_⟩
  rw [← Bool.not_eq_true, h.isAllocated_iff_pos, ← UInt16.toNat_inj, UInt16.toNat_one]
  omega

end Memory

end Exokernel
