/-
  Bytes of frames and bytes of ranges.

  A write to a frame is a series of stores of single bytes: writing one piece after another comes
  to the same as writing both at once (`Page.write_append`, `FramePool.write?_append`), and a byte
  that is stored shows at one place and nowhere else (`FramePool.byteIn?_write`).

  Byte `i` of a range has a place, unless its address does not exist or is not mapped.  Within a
  page the places are neighbours in one frame (`place?_add`).  So a range stops having places only
  where a page starts, which is why a copy that moves whole pages gets exactly as far as one that
  moves bytes.
-/
import Exokernel.Memory.Bytewise
import Exokernel.Proofs.FlatMap
import Exokernel.Proofs.Ranges
import Exokernel.Proofs.Stores

namespace Exokernel

/-! ## Bytes of a page -/

namespace Page

variable (page : Page) (off : Nat) (a b : Array UInt8)

theorem write_empty : page.write off #[] = page := by
  refine Vector.ext fun i hi => ?_
  rw [getElem_write page off #[] hi, if_neg]
  rintro ⟨hle, hlt⟩
  exact absurd hlt (Nat.not_lt_of_le hle)

/-- Two pieces that follow each other are one. -/
theorem write_append : (page.write off a).write (off + a.size) b = page.write off (a ++ b) := by
  refine Vector.ext fun i hi => ?_
  rw [getElem_write _ _ b hi, getElem_write _ _ a hi, getElem_write _ _ (a ++ b) hi,
    Array.size_append]
  simp only [Array.getD_eq_getD_getElem?, Array.getElem?_append]
  by_cases hsecond : off + a.size ≤ i ∧ i < off + a.size + b.size
  · rw [if_pos hsecond, if_pos (by omega), if_neg (by omega),
      show i - off - a.size = i - (off + a.size) by omega]
  · rw [if_neg hsecond]
    by_cases hfirst : off ≤ i ∧ i < off + a.size
    · rw [if_pos hfirst, if_pos (by omega), if_pos (by omega)]
    · rw [if_neg hfirst, if_neg (by omega)]

end Page

/-! ## Bytes of frames -/

namespace FramePool

variable {p p' : FramePool} {f g : Frame} {off o : Nat} {a b bytes : Array UInt8}

theorem byteIn?_eq (p : FramePool) (f : Frame) (off : Nat) :
    p.byteIn? f off = (p.stored? f).bind fun page => page[off]? := by
  unfold byteIn? stored? cell?
  cases p.index? f <;> rfl

theorem usedIndex?_update {i : Nat} {change : Cell → Cell}
    (hu : (change (p.cell i)).inUse = (p.cell i).inUse) (f : Frame) :
    (p.update i change).usedIndex? f = p.usedIndex? f := by
  unfold usedIndex?
  rw [index?_update]
  cases hj : p.index? f with
  | none => rfl
  | some j =>
    rw [Option.filter_some, Option.filter_some, cell_update p i j change (index?_lt hj)]
    by_cases hij : i = j
    · subst hij
      rw [if_pos rfl, hu]
    · rw [if_neg hij]

theorem update_update {i : Nat} (h : i < p.size) (change change' : Cell → Cell) :
    (p.update i change).update i change' = p.update i fun c => change' (change c) := by
  have hcell : (p.update i change).cell i = change (p.cell i) := by
    rw [cell_update p i i change h, if_pos rfl]
  rw [update, hcell]
  simp only [update, Bitmap.set_set, Vector.setIfInBounds_setIfInBounds]

theorem update_id {i : Nat} (h : i < p.size) {change : Cell → Cell} (hid : ∀ c, change c = c) :
    p.update i change = p := by
  have hcell : p.cell i = { inUse := p.inUse.get i, refs := p.refs[i], page := p.pages[i] } :=
    dif_pos h
  have hsame : ∀ {α : Type} (xs : Vector α p.size), xs.setIfInBounds i xs[i] = xs := fun xs => by
    grind
  unfold update
  rw [hid, hcell]
  simp only [Bitmap.set_get, hsame]

theorem write?_empty (h : p.isAllocated f = true) (off : Nat) : p.write? f off #[] = some p := by
  obtain ⟨i, hi⟩ := Option.isSome_iff_exists.1 h
  have hlt := index?_lt (usedIndex?_eq_some_iff.1 hi).1
  unfold write?
  rw [hi, Option.map_some, update_id hlt fun c => by rw [Page.write_empty]]

/-- Two pieces that follow each other are one. -/
theorem write?_append (h : p.write? f off a = some p') :
    p'.write? f (off + a.size) b = p.write? f off (a ++ b) := by
  unfold write? at h ⊢
  obtain ⟨i, hi, rfl⟩ := Option.map_eq_some_iff.1 h
  obtain ⟨hx, -⟩ := usedIndex?_eq_some_iff.1 hi
  rw [usedIndex?_update rfl, hi, Option.map_some, Option.map_some,
    update_update (index?_lt hx)]
  simp only [Page.write_append]

/-- What writing a single byte shows. -/
theorem byteIn?_write {x : UInt8} (hs : p.Sound) (h : p.write? f off #[x] = some p')
    (hoff : off < pageSize) (g : Frame) (o : Nat) :
    p'.byteIn? g o = if g = f ∧ o = off then some x else p.byteIn? g o := by
  obtain ⟨c, hc, -, -, hw⟩ := write?_spec hs h
  rw [byteIn?_eq, byteIn?_eq, stored?, stored?, hw.cell g]
  by_cases hg : g = f
  · subst hg
    rw [if_pos rfl, hc, Option.map_some, Option.map_some, Option.bind_some, Option.bind_some]
    by_cases ho : o < pageSize
    · rw [Vector.getElem?_eq_getElem ho, Vector.getElem?_eq_getElem ho, Page.getElem_write _ _ _ ho]
      by_cases hat : o = off
      · subst hat
        simp
      · rw [if_neg (by simp; omega), if_neg fun heq => hat heq.2]
    · have hat : o ≠ off := by omega
      rw [Vector.getElem?_eq_none (by omega), Vector.getElem?_eq_none (by omega),
        if_neg fun heq => hat heq.2]
  · rw [if_neg hg, if_neg fun heq => hg heq.1]

/-- From `p` to `p'` only bytes change. -/
structure BytesOnly (p p' : FramePool) : Prop where
  extent : p'.extent = p.extent
  free : p'.freeCount = p.freeCount
  refCount : ∀ f, p'.refCount f = p.refCount f
  used : ∀ f, p'.isAllocated f = p.isAllocated f

theorem BytesOnly.refl (p : FramePool) : p.BytesOnly p := ⟨rfl, rfl, fun _ => rfl, fun _ => rfl⟩

theorem BytesOnly.trans {q : FramePool} (h : p.BytesOnly q) (h' : q.BytesOnly p') :
    p.BytesOnly p' where
  extent := h'.extent.trans h.extent
  free := h'.free.trans h.free
  refCount f := (h'.refCount f).trans (h.refCount f)
  used f := (h'.used f).trans (h.used f)

theorem bytesOnly_write (h : p.write? f off bytes = some p') : p.BytesOnly p' := by
  obtain ⟨i, hi, rfl⟩ := Option.map_eq_some_iff.1 h
  obtain ⟨hx, -⟩ := usedIndex?_eq_some_iff.1 hi
  refine ⟨(rewrites_update hx _).extent, rfl, fun g => ?_, fun g => ?_⟩
  · unfold refCount
    rw [index?_update]
    cases hj : p.index? g with
    | none => rfl
    | some j =>
      show ((p.update i _).cell j).refs = (p.cell j).refs
      rw [cell_update p i j _ (index?_lt hj)]
      split <;> rfl
  · unfold isAllocated
    rw [usedIndex?_update rfl]

end FramePool

/-! ## Bytes of ranges -/

namespace VirtAddr

variable {va a b : VirtAddr} {i k : Nat}

theorem add?_eq_some_iff : va.add? i = some a ↔ va.toNat + i = a.toNat := by
  constructor
  · intro h
    exact (toNat_add? h).symm
  · intro h
    unfold add?
    rw [h, if_pos a.toNat_lt, ofNat_toNat]

/-- The bytes of a page are neighbours. -/
theorem add?_within (h : va.add? i = some a) (hk : a.offset + k < pageSize) :
    ∃ b, va.add? (i + k) = some b ∧ a.SamePage b ∧ b.offset = a.offset + k := by
  have ha := add?_eq_some_iff.1 h
  have hlt := a.toNat_lt
  unfold offset at hk
  have hb : (ofNat (va.toNat + (i + k))).toNat = va.toNat + (i + k) := by
    apply toNat_ofNat
    simp only [pageSize] at hk
    omega
  refine ⟨ofNat (va.toNat + (i + k)), add?_eq_some_iff.2 hb.symm, ?_, ?_⟩
  · unfold SamePage dirIndex tableIndex
    rw [Fin.ext_iff, Fin.ext_iff, hb, ← Nat.add_assoc, ha]
    simp only [Fin.ofNat, tableSpan, pageSize, tableSize] at *
    omega
  · unfold offset
    rw [hb, ← Nat.add_assoc, ha]
    simp only [pageSize] at *
    omega

end VirtAddr

namespace Memory

variable {m m' : Memory} {s : SpaceId} {va : VirtAddr} {f : Frame} {i j k off len : Nat}
  {data : Array UInt8}

theorem place?_eq_some_iff : m.place? s va i = some (f, off) ↔
    ∃ a perm, va.add? i = some a ∧ m.lookup s a = some (f, perm) ∧ a.offset = off := by
  simp only [place?, Option.bind_eq_some_iff, Option.map_eq_some_iff, Prod.mk.injEq]
  constructor
  · rintro ⟨a, ha, ⟨f, perm⟩, hl, rfl, rfl⟩
    exact ⟨a, perm, ha, hl, rfl⟩
  · rintro ⟨a, perm, ha, hl, rfl⟩
    exact ⟨a, ha, (f, perm), hl, rfl, rfl⟩

/-- The offset is that of the address. -/
theorem offset_of_place? (h : m.place? s va i = some (f, off)) :
    off = (va.toNat + i) % pageSize := by
  obtain ⟨a, perm, ha, -, rfl⟩ := place?_eq_some_iff.1 h
  rw [VirtAddr.add?_eq_some_iff.1 ha]
  rfl

theorem offset_lt_of_place? (h : m.place? s va i = some (f, off)) : off < pageSize := by
  rw [offset_of_place? h]
  exact Nat.mod_lt _ (by decide)

/-- Within a page the places are neighbours in one frame. -/
theorem place?_add (h : m.place? s va i = some (f, off)) (hk : off + k < pageSize) :
    m.place? s va (i + k) = some (f, off + k) := by
  obtain ⟨a, perm, ha, hl, rfl⟩ := place?_eq_some_iff.1 h
  obtain ⟨b, hb, hsame, hoff⟩ := VirtAddr.add?_within ha hk
  exact place?_eq_some_iff.2 ⟨b, perm, hb, (lookup_of_samePage hsame).symm.trans hl, hoff⟩

/-- Bytes cease to have places where a page starts. -/
theorem mod_pageSize_of_place? (h : m.place? s va i = some (f, off))
    (hnone : m.place? s va (i + 1) = none) : (va.toNat + (i + 1)) % pageSize = 0 := by
  have hoff := offset_of_place? h
  have hlast : pageSize ≤ off + 1 := by
    refine Nat.le_of_not_lt fun hlt => ?_
    rw [place?_add h hlt] at hnone
    cases hnone
  simp only [pageSize] at *
  omega

/-- Memory with the same spaces has the same places. -/
theorem place?_of_spaces (h : m'.spaces = m.spaces) (s : SpaceId) (va : VirtAddr) (i : Nat) :
    m'.place? s va i = m.place? s va i := by
  unfold place?
  simp only [lookup_of_spaces h]

/-! ### How far a range reaches -/

theorem reach_le (m : Memory) (s : SpaceId) (va : VirtAddr) (len : Nat) :
    m.reach s va len ≤ len := by
  have h : m.reach s va len ≤ (List.range len).length := List.findIdx_le_length
  rwa [List.length_range] at h

theorem isSome_of_lt_reach (h : i < m.reach s va len) : (m.place? s va i).isSome = true := by
  have hlt : i < len := Nat.lt_of_lt_of_le h (reach_le m s va len)
  have hnot := List.not_of_lt_findIdx h
  simpa using hnot

theorem place?_reach (h : m.reach s va len < len) : m.place? s va (m.reach s va len) = none := by
  have hlt : (List.range len).findIdx (fun i => (m.place? s va i).isNone) <
      (List.range len).length := by
    rwa [List.length_range]
  have hat := List.findIdx_getElem (w := hlt)
  simpa [reach] using hat

theorem reach_eq (hk : k ≤ len) (hbefore : ∀ i, i < k → (m.place? s va i).isSome = true)
    (hstop : k < len → m.place? s va k = none) : m.reach s va len = k := by
  have hle := reach_le m s va len
  rcases Nat.lt_trichotomy (m.reach s va len) k with hlt | heq | hgt
  · have hnone : m.place? s va (m.reach s va len) = none := place?_reach (by omega)
    have hsome := hbefore _ hlt
    rw [hnone] at hsome
    cases hsome
  · exact heq
  · have hsome := isSome_of_lt_reach hgt
    rw [hstop (by omega)] at hsome
    cases hsome

/-- Whole ranges. -/
theorem reach_eq_len_iff :
    m.reach s va len = len ↔ ∀ i, i < len → (m.place? s va i).isSome = true := by
  constructor
  · intro h i hi
    exact isSome_of_lt_reach (by rw [h]; exact hi)
  · exact fun h => reach_eq (Nat.le_refl len) h fun hlt => absurd hlt (Nat.lt_irrefl len)

/-- A range that stops short does so where a page starts, or at once. -/
theorem reach_page (h : m.reach s va len < len) :
    m.reach s va len = 0 ∨ (va.toNat + m.reach s va len) % pageSize = 0 := by
  have hnone := place?_reach h
  cases hr : m.reach s va len with
  | zero => exact .inl rfl
  | succ n =>
    rw [hr] at hnone
    have hsome : (m.place? s va n).isSome = true := isSome_of_lt_reach (by rw [hr]; omega)
    obtain ⟨⟨f, off⟩, hplace⟩ := Option.isSome_iff_exists.1 hsome
    exact .inr (mod_pageSize_of_place? hplace hnone)

end Memory

end Exokernel
