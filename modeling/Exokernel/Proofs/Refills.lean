/-
  Pages that come and go in one space.

  Growing a heap maps and unmaps many pages in one call.  What is mapped on the way is always a
  frame that is free at that moment, but it need not have been free when the call began: a page
  that is replaced frees its frame, and the next fresh page may be in that very frame.

  So the frames that nothing happens to have to be told apart from the others.  A frame is
  `Anchored` outside a region of a space if something besides the pages of that region keeps it
  in use.  As long as pages come and go in the region alone, anchored frames stay in use, keep
  what is stored in them and are mapped nowhere new.  `Redraws` says that, and `Refills.redraws`
  proves it by induction on the pages.
-/
import Exokernel.Proofs.Entries
import Exokernel.Proofs.Failures

namespace Exokernel

/-- The address lies in the page of some address from `start` on and below `stop`. -/
def VirtAddr.Among (start stop : Nat) (b : VirtAddr) : Prop :=
  ∃ a : VirtAddr, start ≤ a.toNat ∧ a.toNat < stop ∧ a.SamePage b

theorem VirtAddr.Among.mono {start stop start' stop' : Nat} {b : VirtAddr}
    (h : Among start stop b) (hstart : start' ≤ start) (hstop : stop ≤ stop') :
    Among start' stop' b := by
  obtain ⟨a, hge, hlt, hb⟩ := h
  exact ⟨a, Nat.le_trans hstart hge, Nat.lt_of_lt_of_le hlt hstop, hb⟩

namespace Memory

variable {m m' m'' : Memory} {pins : List Frame} {s : SpaceId} {W : VirtAddr → Prop} {f : Frame}
  {perm : Perm}

/-! ## Anchored frames -/

/-- Something keeps the frame in use besides the pages of `s` in the region `W`. -/
def Anchored (m : Memory) (pins : List Frame) (s : SpaceId) (W : VirtAddr → Prop) (f : Frame) :
    Prop :=
  m.Structural f ∨ (∃ r b e, (r = s → ¬ W b) ∧ m.find? r b = some e ∧ e.frame = f) ∨ f ∈ pins

theorem Anchored.isAllocated (h : m.Anchored pins s W f) (hb : m.Balanced pins [])
    (hsize : m.spaces.size < 0x100000000) : m.pool.isAllocated f = true := by
  rw [hb.isAllocated_iff_maps hsize]
  rcases h with h | ⟨r, b, e, -, he, hf⟩ | h
  · exact Or.inl h
  · exact Or.inr (Or.inl ⟨r, b, e, he, hf⟩)
  · exact Or.inr (Or.inr h)

/-- A frame in use is anchored, or it is mapped in the region. -/
theorem anchored_or_mapped (hb : m.Balanced pins []) (hsize : m.spaces.size < 0x100000000)
    (hf : m.pool.isAllocated f = true) :
    m.Anchored pins s W f ∨ ∃ b e, W b ∧ m.find? s b = some e ∧ e.frame = f := by
  rcases (hb.isAllocated_iff_maps hsize).1 hf with h | ⟨r, b, e, he, hf⟩ | h
  · exact Or.inl (Or.inl h)
  · by_cases hW : r = s → ¬ W b
    · exact Or.inl (Or.inr (Or.inl ⟨r, b, e, hW, he, hf⟩))
    · push Not at hW
      obtain ⟨rfl, hW⟩ := hW
      exact Or.inr ⟨b, e, hW, he, hf⟩
  · exact Or.inl (Or.inr (Or.inr h))

/-- From `m` to `m'`, pages come and go in the region `W` of the space `s`. -/
structure Redraws (m m' : Memory) (pins : List Frame) (s : SpaceId) (W : VirtAddr → Prop) :
    Prop where
  size : m'.spaces.size = m.spaces.size
  root : ∀ r, m'.root? r = m.root? r
  /-- Tables stay. -/
  table : ∀ r b f, m.table? r b = some f → m'.table? r b = some f
  /-- A new table is in no anchored frame. -/
  added : ∀ r b f, m'.table? r b = some f → m.table? r b = some f ∨ ¬ m.Anchored pins s W f
  /-- Pages outside the region stay. -/
  entry : ∀ r b, (r = s → ¬ W b) → m'.find? r b = m.find? r b
  /-- A new page is in no anchored frame. -/
  brought : ∀ b e, m'.find? s b = some e →
    m.find? s b = some e ∨ ¬ m.Anchored pins s W e.frame
  stored : ∀ f, m.Anchored pins s W f → m'.pool.stored? f = m.pool.stored? f

theorem Redraws.refl (m : Memory) : m.Redraws m pins s W :=
  ⟨rfl, fun _ => rfl, fun _ _ _ h => h, fun _ _ _ h => Or.inl h, fun _ _ _ => rfl,
    fun _ _ h => Or.inl h, fun _ _ => rfl⟩

/-- Anchored frames stay anchored. -/
theorem Redraws.anchored (h : m.Redraws m' pins s W) (hf : m.Anchored pins s W f) :
    m'.Anchored pins s W f := by
  rcases hf with (⟨r, hr⟩ | ⟨r, b, hr⟩) | ⟨r, b, e, hW, he, hf⟩ | hf
  · exact Or.inl (Or.inl ⟨r, (h.root r).trans hr⟩)
  · exact Or.inl (Or.inr ⟨r, b, h.table r b f hr⟩)
  · exact Or.inr (Or.inl ⟨r, b, e, hW, (h.entry r b hW).trans he, hf⟩)
  · exact Or.inr (Or.inr hf)

theorem Redraws.trans (h : m.Redraws m' pins s W) (h' : m'.Redraws m'' pins s W) :
    m.Redraws m'' pins s W where
  size := h'.size.trans h.size
  root r := (h'.root r).trans (h.root r)
  table r b f hf := h'.table r b f (h.table r b f hf)
  added := by
    intro r b f hf
    rcases h'.added r b f hf with hold | hnew
    · exact h.added r b f hold
    · exact Or.inr fun ha => hnew (h.anchored ha)
  entry r b hW := (h'.entry r b hW).trans (h.entry r b hW)
  brought := by
    intro b e he
    rcases h'.brought b e he with hold | hnew
    · exact h.brought b e hold
    · exact Or.inr fun ha => hnew (h.anchored ha)
  stored f hf := (h'.stored f (h.anchored hf)).trans (h.stored f hf)

/-- One entry of the region is set to a frame that was free, or cleared. -/
theorem Sets.redraws {va : VirtAddr} {e : Option PageEntry} (h : m.Sets m' s va e)
    (hb : m.Balanced pins []) (hsize : m.spaces.size < 0x100000000)
    (hW : ∀ b, va.SamePage b → W b)
    (hfree : ∀ x, e = some x → m.pool.isAllocated x.frame = false) :
    m.Redraws m' pins s W := by
  -- what is free is anchored by nothing
  have hloose : ∀ {g : Frame}, m.pool.isAllocated g = false → ¬ m.Anchored pins s W g := by
    intro g hg ha
    exact Bool.false_ne_true (hg.symm.trans (ha.isAllocated hb hsize))
  refine ⟨h.size, h.root, h.table, ?_, ?_, ?_, ?_⟩
  · intro r b f hf
    exact (h.added r b f hf).imp_right fun hnew => hloose hnew.2
  · intro r b hout
    exact h.entry_of_ne fun hr hpage => hout hr (hW b hpage)
  · intro b x hx
    by_cases hpage : va.SamePage b
    · rw [h.entry_self hpage] at hx
      exact Or.inr (hloose (hfree x hx))
    · rw [h.entry_of_ne fun _ => hpage] at hx
      exact Or.inl hx
  · intro f hf
    exact h.stored f (hf.isAllocated hb hsize)

theorem Alike.stored? (h : m.Alike m') (hf : m.pool.isAllocated f = true) :
    m'.pool.stored? f = m.pool.stored? f := by
  have hf' : m'.pool.isAllocated f = true := (h.pool.isAllocated f).trans hf
  rw [← FramePool.page?_of_isAllocated hf, ← FramePool.page?_of_isAllocated hf', h.pool.page?]

theorem Alike.directory? (h : m.Alike m') (s : SpaceId) : m'.directory? s = m.directory? s := by
  unfold Memory.directory?
  rw [h.spaces]

theorem Alike.redraws (h : m.Alike m') (hb : m.Balanced pins [])
    (hsize : m.spaces.size < 0x100000000) : m.Redraws m' pins s W := by
  have htable : ∀ r b, m'.table? r b = m.table? r b := fun r b => table?_congr (h.directory? r) b
  have hfind : ∀ r b, m'.find? r b = m.find? r b := fun r b => find?_congr (h.directory? r) b
  refine ⟨by rw [h.spaces], fun r => root?_congr (h.directory? r), ?_, ?_, ?_, ?_, ?_⟩
  · intro r b f hf
    rw [htable, hf]
  · intro r b f hf
    rw [htable] at hf
    exact Or.inl hf
  · intro r b _
    exact hfind r b
  · intro b e he
    rw [hfind] at he
    exact Or.inl he
  · intro f hf
    exact h.stored? (hf.isAllocated hb hsize)

/-! ## One page after the other -/

/-- One page of the region `W` of the space `s` is mapped afresh or unmapped, or could not be
  mapped. -/
inductive Refill (s : SpaceId) (W : VirtAddr → Prop) (m : Memory) : Memory → Prop where
  | map {va : VirtAddr} {perm : Perm} {m' : Memory} (user : va.isUser = true)
      (allowed : perm.Requestable) (inside : ∀ b, va.SamePage b → W b)
      (mapped : m.mapFresh s va perm = (m', none)) : Refill s W m m'
  | fail {va : VirtAddr} {perm : Perm} {e : MappingError} {m' : Memory}
      (allowed : perm.Requestable) (failed : m.mapFresh s va perm = (m', some e)) :
      Refill s W m m'
  | unmap {va : VirtAddr} (inside : ∀ b, va.SamePage b → W b) : Refill s W m (m.remove s va)

/-- A series of such steps. -/
abbrev Refills (s : SpaceId) (W : VirtAddr → Prop) : Memory → Memory → Prop :=
  Relation.ReflTransGen (Refill s W)

theorem Refill.balanced (h : Refill s W m m') (hb : m.Balanced pins []) :
    m'.Balanced pins [] := by
  cases h with
  | @map va perm _ _ allowed _ mapped =>
    have hspec := (mapFresh_spec hb s va allowed.bits_lt).1
    rwa [mapped] at hspec
  | @fail va perm _ _ allowed failed =>
    have hspec := (mapFresh_spec hb s va allowed.bits_lt).1
    rwa [failed] at hspec
  | @unmap va => exact (remove_spec hb s va).1

theorem Refill.redraws (h : Refill s W m m') (hb : m.Balanced pins [])
    (hsize : m.spaces.size < 0x100000000) : m.Redraws m' pins s W := by
  cases h with
  | @map va perm _ _ allowed inside mapped =>
    obtain ⟨f, hfresh⟩ := mapFresh_sets hb hsize mapped
    refine hfresh.sets.redraws hb hsize inside ?_
    intro x hx
    obtain rfl := Option.some.inj hx
    rw [PageEntry.frame_page hfresh.fits allowed.bits_lt]
    exact hfresh.free
  | fail _ failed => exact (mapFresh_failed hb failed).redraws hb hsize
  | @unmap va inside =>
    refine (remove_sets hb s va).redraws hb hsize inside ?_
    intro x hx
    cases hx

theorem Refills.mono {W' : VirtAddr → Prop} (h : Refills s W m m') (hW : ∀ b, W b → W' b) :
    Refills s W' m m' := by
  refine Relation.ReflTransGen.mono ?_ m m' h
  intro m m' hstep
  cases hstep with
  | map user allowed inside mapped =>
    exact .map user allowed (fun b hb => hW b (inside b hb)) mapped
  | fail allowed failed => exact .fail allowed failed
  | unmap inside => exact .unmap fun b hb => hW b (inside b hb)

/-- **Pages that come and go in a region leave everything anchored outside.** -/
theorem Refills.redraws (h : Refills s W m m') (hb : m.Balanced pins [])
    (hsize : m.spaces.size < 0x100000000) : m'.Balanced pins [] ∧ m.Redraws m' pins s W := by
  induction h with
  | refl => exact ⟨hb, .refl m⟩
  | tail _ hlast ih =>
    obtain ⟨hmid, hredraws⟩ := ih
    have hsize' := hsize
    rw [← hredraws.size] at hsize'
    exact ⟨hlast.balanced hmid, hredraws.trans (hlast.redraws hmid hsize')⟩

/-- What one page keeps, a series of pages keeps. -/
theorem Refills.invariant {I : Memory → Prop} (h : Refills s W m m') (hb : m.Balanced pins [])
    (hsize : m.spaces.size < 0x100000000) (hm : I m)
    (step : ∀ m m' : Memory, m.Balanced pins [] → m.spaces.size < 0x100000000 → I m →
      Refill s W m m' → I m') : I m' := by
  induction h with
  | refl => exact hm
  | tail hr hlast ih =>
    obtain ⟨hmid, hredraws⟩ := Refills.redraws hr hb hsize
    exact step _ _ hmid (hredraws.size ▸ hsize) ih hlast

/-! ## Many pages -/

/-- The pages after the first one. -/
theorem toNat_next {va : VirtAddr} {n : Nat} (h : va.toNat + (n + 1) * pageSize ≤ userTop) :
    (VirtAddr.ofNat (va.toNat + pageSize)).toNat = va.toNat + pageSize := by
  apply VirtAddr.toNat_ofNat
  simp only [userTop, pageSize] at *
  omega

theorem toNat_next_le {va : VirtAddr} {n : Nat} (h : va.toNat + (n + 1) * pageSize ≤ userTop) :
    (VirtAddr.ofNat (va.toNat + pageSize)).toNat + n * pageSize ≤ userTop := by
  rw [toNat_next h]
  simp only [pageSize] at *
  omega

theorem isAligned_next {va : VirtAddr} {n : Nat} (haligned : va.isAligned = true)
    (htop : va.toNat + (n + 1) * pageSize ≤ userTop) :
    (VirtAddr.ofNat (va.toNat + pageSize)).isAligned = true := by
  have hva : va.toNat % pageSize = 0 := beq_iff_eq.1 haligned
  refine beq_iff_eq.2 ?_
  rw [toNat_next htop, Nat.add_mod_right, hva]

theorem among_next {va : VirtAddr} {n : Nat} (h : va.toNat + (n + 1) * pageSize ≤ userTop)
    (hW : ∀ b, VirtAddr.Among va.toNat (va.toNat + (n + 1) * pageSize) b → W b) :
    (∀ b, va.SamePage b → W b) ∧
      ∀ b, VirtAddr.Among (VirtAddr.ofNat (va.toNat + pageSize)).toNat
        ((VirtAddr.ofNat (va.toNat + pageSize)).toNat + n * pageSize) b → W b := by
  rw [toNat_next h]
  constructor
  · intro b hb
    refine hW b ⟨va, Nat.le_refl _, ?_, hb⟩
    simp only [pageSize]
    omega
  · intro b hb
    refine hW b (hb.mono ?_ ?_)
    · exact Nat.le_add_right _ _
    · simp only [pageSize]
      omega

/-- A page of the run is the first one or one of the rest. -/
theorem among_cases {va b : VirtAddr} {n : Nat} (haligned : va.isAligned = true)
    (htop : va.toNat + (n + 1) * pageSize ≤ userTop)
    (hb : VirtAddr.Among va.toNat (va.toNat + (n + 1) * pageSize) b) :
    va.SamePage b ∨ VirtAddr.Among (VirtAddr.ofNat (va.toNat + pageSize)).toNat
      ((VirtAddr.ofNat (va.toNat + pageSize)).toNat + n * pageSize) b := by
  obtain ⟨a, hge, hlt, hab⟩ := hb
  have hva : va.toNat % pageSize = 0 := beq_iff_eq.1 haligned
  rw [toNat_next htop]
  by_cases hfirst : a.toNat < va.toNat + pageSize
  · have hpage : va.SamePage a := by
      refine (VirtAddr.samePage_iff ?_ ?_).2 ?_ <;> simp only [userTop, pageSize] at * <;> omega
    exact Or.inl ⟨hpage.1.trans hab.1, hpage.2.trans hab.2⟩
  · refine Or.inr ⟨a, Nat.le_of_not_lt hfirst, ?_, hab⟩
    simp only [pageSize] at *
    omega

theorem mapPages_refills (hperm : perm.Requestable) : ∀ (n : Nat) (va : VirtAddr) (m : Memory),
    va.toNat + n * pageSize ≤ userTop →
      (∀ b, VirtAddr.Among va.toNat (va.toNat + n * pageSize) b → W b) →
        Refills s W m (mapPages s perm n va m).1
  | 0, _, m, _, _ => .refl
  | n + 1, va, m, htop, hW => by
    obtain ⟨hfirst, hrest⟩ := among_next htop hW
    have htop' := toNat_next_le htop
    have huser : va.isUser = true := by
      refine decide_eq_true ?_
      simp only [pageSize] at htop
      omega
    unfold mapPages
    split
    · rename_i m' e heq
      exact .single (.fail hperm heq)
    · rename_i m' heq
      exact .head (.map huser hperm hfirst heq) (mapPages_refills hperm n _ m' htop' hrest)

theorem removePages_refills : ∀ (n : Nat) (va : VirtAddr) (m : Memory),
    va.toNat + n * pageSize ≤ userTop →
      (∀ b, VirtAddr.Among va.toNat (va.toNat + n * pageSize) b → W b) →
        Refills s W m (removePages s n va m)
  | 0, _, m, _, _ => .refl
  | n + 1, va, m, htop, hW => by
    obtain ⟨hfirst, hrest⟩ := among_next htop hW
    have htop' := toNat_next_le htop
    exact .head (.unmap hfirst) (removePages_refills n _ _ htop' hrest)

/-- Mapping stops at the first page that cannot be mapped. -/
theorem mapPages_failed {fault : VirtAddr} {e : MappingError} :
    ∀ {n : Nat} {va : VirtAddr} {m : Memory}, va.toNat + n * pageSize ≤ userTop →
      mapPages s perm n va m = (m', some (fault, e)) →
        ∃ i m₁, i < n ∧ fault.toNat = va.toNat + i * pageSize ∧
          mapPages s perm i va m = (m₁, none) ∧ m₁.mapFresh s fault perm = (m', some e)
  | 0, va, m, _, h => by cases (Prod.mk.inj h).2
  | n + 1, va, m, htop, h => by
    unfold mapPages at h
    split at h
    · rename_i m₁ e' heq
      obtain ⟨rfl, hfault⟩ := Prod.mk.inj h
      obtain ⟨rfl, rfl⟩ := Prod.mk.inj (Option.some.inj hfault)
      refine ⟨0, m, Nat.succ_pos n, ?_, rfl, heq⟩
      omega
    · rename_i m₁ heq
      obtain ⟨i, m₂, hi, hfault, hpages, hfail⟩ := mapPages_failed (toNat_next_le htop) h
      refine ⟨i + 1, m₂, Nat.succ_lt_succ hi, ?_, ?_, hfail⟩
      · rw [hfault, toNat_next htop]
        simp only [pageSize]
        omega
      · rw [mapPages, heq]
        exact hpages

section Undone

variable {fault va : VirtAddr} {e : MappingError} {n i : Nat}

/-- The same, with the number of the pages that were mapped. -/
theorem mapPages_failed_at (htop : va.toNat + n * pageSize ≤ userTop)
    (h : mapPages s perm n va m = (m', some (fault, e)))
    (hi : i = (fault.toNat - va.toNat) / pageSize) :
    ∃ m₁, fault.toNat = va.toNat + i * pageSize ∧ va.toNat + i * pageSize ≤ userTop ∧
      mapPages s perm i va m = (m₁, none) ∧ m₁.mapFresh s fault perm = (m', some e) := by
  obtain ⟨j, m₁, hj, hfault, hpages, hfail⟩ := mapPages_failed htop h
  obtain rfl : i = j := by
    rw [hi, hfault]
    simp only [pageSize]
    omega
  refine ⟨m₁, hfault, ?_, hpages, hfail⟩
  calc va.toNat + i * pageSize ≤ va.toNat + n * pageSize :=
        Nat.add_le_add_left (Nat.mul_le_mul_right _ (Nat.le_of_lt hj)) _
    _ ≤ userTop := htop

/-- Pages that are mapped up to one that cannot be, and then unmapped. -/
theorem undone_refills (hperm : perm.Requestable) (htop : va.toNat + n * pageSize ≤ userTop)
    (h : mapPages s perm n va m = (m', some (fault, e)))
    (hi : i = (fault.toNat - va.toNat) / pageSize) :
    Refills s (VirtAddr.Among va.toNat fault.toNat) m (removePages s i va m') := by
  obtain ⟨m₁, hfault, htop', hpages, hfail⟩ := mapPages_failed_at htop h hi
  rw [hfault]
  have hmap : Refills s (VirtAddr.Among va.toNat (va.toNat + i * pageSize)) m
      (mapPages s perm i va m).1 := mapPages_refills hperm i va m htop' fun _ hb => hb
  rw [hpages] at hmap
  exact (hmap.tail (.fail hperm hfail)).trans (removePages_refills i va m' htop' fun _ hb => hb)

end Undone

end Memory

end Exokernel
