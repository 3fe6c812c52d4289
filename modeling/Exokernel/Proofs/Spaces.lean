/-
  Address spaces and the references that they hold.

  `Balanced` is the invariant of memory: the pool counts exactly the references that live spaces
  and the reserved pages hold.  The list of references is regarded up to order, and every
  operation is followed by what it adds to the list and what it takes away.

  `Touches` is the other half: an operation on one space leaves all other spaces as they were,
  the contents of their pages included.  That half rests on the first, for a page that another
  space maps has a reference, so it is never free and never handed out again.
-/
import Exokernel.Memory
import Exokernel.Proofs.Frames
import Exokernel.Proofs.Tables

namespace Exokernel.Memory

/-- The pool counts the references of the live spaces and of the reserved pages `pins`; frames in
  `fresh` have none yet.  All frames have addresses of 32 bits. -/
structure Balanced (m : Memory) (pins fresh : List Frame) : Prop where
  accounts : m.pool.Accounts (m.references ++ pins) fresh
  fits : m.pool.extent.1.toNat + m.pool.extent.2 * pageSize ≤ 0x100000000

theorem Balanced.fits_of_manages {m : Memory} {pins fresh : List Frame} {f : Frame}
    (h : m.Balanced pins fresh) (hf : m.pool.manages f = true) : PageEntry.Fits f := by
  have hb : m.pool.base.toNat + m.pool.size * pageSize ≤ 0x100000000 := h.fits
  obtain ⟨c, hc⟩ := FramePool.manages_iff.1 hf
  obtain ⟨i, hi, -⟩ := Option.map_eq_some_iff.1 hc
  obtain ⟨ha, hle, hd, hlt⟩ := FramePool.index?_eq_some_iff.1 hi
  simp only [pageSize] at *
  exact ⟨ha, by omega⟩

/-- Memory in which no space has been created. -/
structure Vacant (m : Memory) : Prop where
  spaces : m.spaces = #[]
  active : m.active = none

/-! ## Directories among the spaces -/

theorem SpaceId.number_ne {r s : SpaceId} (h : r ≠ s) : r.number.toNat ≠ s.number.toNat := by
  intro hn
  apply h
  cases r
  cases s
  exact congrArg SpaceId.mk (UInt32.toNat_inj.1 hn)

theorem directory?_eq_some_iff {m : Memory} {s : SpaceId} {d : Directory} :
    m.directory? s = some d ↔ m.spaces.toList[s.number.toNat]? = some (some d) := by
  rw [directory?, Array.getD_eq_getD_getElem?, Array.getElem?_toList]
  cases m.spaces[s.number.toNat]? <;> simp

theorem lt_of_directory? {m : Memory} {s : SpaceId} {d : Directory}
    (h : m.directory? s = some d) : s.number.toNat < m.spaces.size := by
  obtain ⟨hlt, -⟩ := List.getElem?_eq_some_iff.1 (directory?_eq_some_iff.1 h)
  exact hlt

/-- Spaces are numbered from zero. -/
theorem directory?_ofNat {m : Memory} (hsize : m.spaces.size < 0x100000000) {i : Nat}
    (hi : i < m.spaces.size) : m.directory? ⟨UInt32.ofNat i⟩ = m.spaces[i] := by
  have hnumber : (UInt32.ofNat i).toNat = i := UInt32.toNat_ofNat_of_lt' (Nat.lt_trans hi hsize)
  rw [directory?, hnumber, Array.getD_eq_getD_getElem?, Array.getElem?_eq_getElem hi,
    Option.getD_some]

theorem Vacant.directory? {m : Memory} (h : m.Vacant) (s : SpaceId) : m.directory? s = none := by
  rw [Memory.directory?, h.spaces]
  rfl

/-- Replacing the directory of a live space leaves the other spaces. -/
theorem directory?_setDirectory_of_ne {m : Memory} {r s : SpaceId} (d : Option Directory)
    (h : r ≠ s) : (m.setDirectory s d).directory? r = m.directory? r := by
  unfold directory? setDirectory
  rw [Array.getD_eq_getD_getElem?, Array.getD_eq_getD_getElem?, Array.getElem?_setIfInBounds,
    if_neg (SpaceId.number_ne h).symm]

theorem directory?_setDirectory_self {m : Memory} {s : SpaceId} {d : Directory}
    (h : m.directory? s = some d) (d' : Option Directory) :
    (m.setDirectory s d').directory? s = d' := by
  rw [directory?_setDirectory m s s d' (lt_of_directory? h), if_pos rfl]

/-- The references of memory are those of one space and a rest, which has all that the other
  spaces refer to. -/
theorem references_setDirectory {m : Memory} {s : SpaceId} {d : Directory}
    (h : m.directory? s = some d) :
    ∃ rest, m.references.Perm (d.references ++ rest) ∧
      (∀ d', (m.setDirectory s d').references.Perm
        ((d'.map Directory.references).getD [] ++ rest)) ∧
      ∀ r, r ≠ s → ∀ e, m.directory? r = some e → ∀ f ∈ e.references, f ∈ rest := by
  obtain ⟨hi, hd⟩ := List.getElem?_eq_some_iff.1 (directory?_eq_some_iff.1 h)
  let g : Option Directory → List Frame := fun d => (d.map Directory.references).getD []
  refine ⟨(m.spaces.toList.eraseIdx s.number.toNat).flatMap g, ?_, fun d' => ?_, ?_⟩
  · have hp := flatMap_perm_eraseIdx hi g
    rw [hd] at hp
    exact hp
  · have hset : (m.setDirectory s d').spaces.toList = m.spaces.toList.set s.number.toNat d' := by
      simp [setDirectory]
    rw [references, hset]
    exact flatMap_set_perm hi d' g
  · intro r hr e he f hf
    rw [directory?_eq_some_iff] at he
    refine List.mem_flatMap.2 ⟨some e, ?_, hf⟩
    rw [List.mem_eraseIdx_iff_getElem?]
    exact ⟨r.number.toNat, SpaceId.number_ne hr, he⟩

theorem mem_references {m : Memory} {s : SpaceId} {d : Directory} {f : Frame}
    (h : m.directory? s = some d) (hf : f ∈ d.references) : f ∈ m.references := by
  obtain ⟨rest, hp, -⟩ := references_setDirectory h
  exact hp.mem_iff.2 (List.mem_append_left _ hf)

/-! ## Mappings -/

/-- Every reference is one of some space. -/
theorem exists_of_mem_references {m : Memory} (hsize : m.spaces.size < 0x100000000) {f : Frame}
    (hf : f ∈ m.references) : ∃ s d, m.directory? s = some d ∧ f ∈ d.references := by
  obtain ⟨o, ho, hf⟩ := List.mem_flatMap.1 hf
  cases o with
  | none => cases hf
  | some d =>
    obtain ⟨i, hi, hget⟩ := Array.mem_iff_getElem.1 (Array.mem_toList_iff.1 ho)
    exact ⟨_, d, (directory?_ofNat hsize hi).trans hget, hf⟩

theorem lookup_eq_some_iff {m : Memory} {s : SpaceId} {va : VirtAddr} {f : Frame} {perm : Perm} :
    m.lookup s va = some (f, perm) ↔ ∃ d e, m.directory? s = some d ∧ d.find? va = some e ∧
      e.isValid = true ∧ e.frame = f ∧ e.perm = perm := by
  unfold lookup
  simp only [Option.bind_eq_some_iff, Option.ite_none_right_eq_some, Option.some.injEq,
    Prod.mk.injEq]
  constructor
  · rintro ⟨d, hd, e, he, hv, hf, hp⟩
    exact ⟨d, e, hd, he, hv, hf, hp⟩
  · rintro ⟨d, e, hd, he, hv, hf, hp⟩
    exact ⟨d, hd, e, he, hv, hf, hp⟩

/-- A lookup depends on the directory alone. -/
theorem lookup_congr {m m' : Memory} {s : SpaceId} (h : m'.directory? s = m.directory? s)
    (va : VirtAddr) : m'.lookup s va = m.lookup s va := by
  unfold lookup
  rw [h]

theorem frame_mem_of_lookup {m : Memory} {s : SpaceId} {va : VirtAddr} {f : Frame} {perm : Perm}
    (h : m.lookup s va = some (f, perm)) :
    ∃ d, m.directory? s = some d ∧ f ∈ d.references := by
  obtain ⟨d, e, hd, he, -, rfl, -⟩ := lookup_eq_some_iff.1 h
  exact ⟨d, hd, Directory.frame_mem_references he⟩

/-- What is mapped is in use. -/
theorem Balanced.isAllocated_of_lookup {m : Memory} {pins : List Frame} {s : SpaceId}
    {va : VirtAddr} {f : Frame} {perm : Perm} (h : m.Balanced pins [])
    (hl : m.lookup s va = some (f, perm)) : m.pool.isAllocated f = true := by
  obtain ⟨d, hd, hmem⟩ := frame_mem_of_lookup hl
  exact (h.accounts.isAllocated_iff f).2 (List.mem_append_left pins (mem_references hd hmem))

/-! ## Operations on one space -/

/-- From `m` to `m'`, nothing happens to spaces other than `s` and to the contents of their
  pages, and `s` stays what it is, live or not. -/
structure Touches (m m' : Memory) (s : SpaceId) : Prop where
  extent : m'.pool.extent = m.pool.extent
  size : m'.spaces.size = m.spaces.size
  live : (m'.directory? s).isSome = (m.directory? s).isSome
  others : ∀ r, r ≠ s → m'.directory? r = m.directory? r
  stored : ∀ r, r ≠ s → ∀ d, m.directory? r = some d → ∀ f ∈ d.references,
    m'.pool.stored? f = m.pool.stored? f

theorem Touches.refl (m : Memory) (s : SpaceId) : m.Touches m s :=
  ⟨rfl, rfl, rfl, fun _ _ => rfl, fun _ _ _ _ _ _ => rfl⟩

theorem Touches.trans {m m' m'' : Memory} {s : SpaceId} (h : m.Touches m' s)
    (h' : m'.Touches m'' s) : m.Touches m'' s where
  extent := h'.extent.trans h.extent
  size := h'.size.trans h.size
  live := h'.live.trans h.live
  others r hr := (h'.others r hr).trans (h.others r hr)
  stored r hr d hd f hf := by
    have hd' : m'.directory? r = some d := (h.others r hr).trans hd
    exact (h'.stored r hr d hd' f hf).trans (h.stored r hr d hd f hf)

/-- Replacing the directory of a live space, with a pool that keeps what is stored in frames with
  references, touches that space alone. -/
theorem touches_setDirectory {m : Memory} {s : SpaceId} {d d' : Directory} {pool : FramePool}
    (hd : m.directory? s = some d) (hextent : pool.extent = m.pool.extent)
    (hstored : ∀ f ∈ m.references, pool.stored? f = m.pool.stored? f) :
    m.Touches { m.setDirectory s (some d') with pool } s where
  extent := hextent
  size := Array.size_setIfInBounds
  live := by
    show ((m.setDirectory s (some d')).directory? s).isSome = _
    rw [directory?_setDirectory_self hd, hd]
    rfl
  others r hr := directory?_setDirectory_of_ne _ hr
  stored r _ e he f hf := hstored f (mem_references he hf)

/-- From `m` to `m'`, the same spaces are live and the same one is in force.  Unlike all else that
  is said of memory here, this needs no balanced books. -/
structure Keeps (m m' : Memory) : Prop where
  size : m'.spaces.size = m.spaces.size
  live : ∀ r, (m'.directory? r).isSome = (m.directory? r).isSome
  active : m'.active = m.active

namespace Keeps

variable {m m' m'' : Memory}

theorem refl (m : Memory) : m.Keeps m := ⟨rfl, fun _ => rfl, rfl⟩

theorem trans (h : m.Keeps m') (h' : m'.Keeps m'') : m.Keeps m'' where
  size := h'.size.trans h.size
  live r := (h'.live r).trans (h.live r)
  active := h'.active.trans h.active

theorem pool (m : Memory) (pool : FramePool) : m.Keeps { m with pool } := ⟨rfl, fun _ => rfl, rfl⟩

theorem setDirectory {s : SpaceId} {d : Directory} (hd : m.directory? s = some d) (d' : Directory)
    (pool : FramePool) : m.Keeps { m.setDirectory s (some d') with pool } where
  size := Array.size_setIfInBounds
  live r := by
    show ((m.setDirectory s (some d')).directory? r).isSome = _
    by_cases hr : r = s
    · subst hr
      rw [directory?_setDirectory_self hd, hd]
      rfl
    · rw [directory?_setDirectory_of_ne _ hr]
  active := rfl

end Keeps

/-! ### Insertion -/

/-- The references of memory around one entry of a table that is there. -/
theorem references_setEntry {m : Memory} {s : SpaceId} {d : Directory} {va : VirtAddr}
    {t : PageTable} (hd : m.directory? s = some d) (ht : d.table? va = some t) :
    ∃ rest, m.references.Perm (PageEntry.references (t.find? va) ++ rest) ∧
      ∀ e, (m.setDirectory s (some (d.setTable va (t.set va e)))).references.Perm
        (PageEntry.references e ++ rest) := by
  obtain ⟨outer, ho, hset, -⟩ := references_setDirectory hd
  obtain ⟨inner, hi, hentry⟩ := Directory.references_setEntry ht
  refine ⟨inner ++ outer, ?_, fun e => ?_⟩
  · rw [← List.append_assoc]
    exact ho.trans (hi.append_right _)
  · rw [← List.append_assoc]
    exact (hset _).trans ((hentry e).append_right _)

/-- The references of memory around one entry of a table that is added in the frame `g`. -/
theorem references_setEntry_new {m : Memory} {s : SpaceId} {d : Directory} {va : VirtAddr}
    (hd : m.directory? s = some d) (ht : d.table? va = none) (g : Frame) (e : Option PageEntry) :
    (m.setDirectory s (some (d.setTable va ((PageTable.empty g).set va e)))).references.Perm
      (PageEntry.references e ++ g :: m.references) := by
  obtain ⟨outer, ho, hset, -⟩ := references_setDirectory hd
  have hentry := (Directory.references_setEntry_new ht g e).append_right outer
  rw [List.append_assoc] at hentry
  exact (hset _).trans (hentry.trans ((ho.symm.cons g).append_left _))

/-- The table for an address, there or added: who accounts for its frame, what it maps and what
  the memory refers to once an entry of it is set. -/
theorem tableFor?_spec {m : Memory} {pins fresh : List Frame} {s : SpaceId} {d : Directory}
    {va : VirtAddr} {pool : FramePool} {t : PageTable} (h : m.Balanced pins fresh)
    (hd : m.directory? s = some d) (ht : tableFor? m.pool d va = some (pool, t)) :
    (∃ rest, pool.Accounts (PageEntry.references (t.find? va) ++ rest ++ pins) fresh ∧
      ∀ e, (m.setDirectory s (some (d.setTable va (t.set va e)))).references.Perm
        (PageEntry.references e ++ rest)) ∧
    (∀ e b, (d.setTable va (t.set va e)).find? b = if va.SamePage b then e else d.find? b) ∧
    (∀ f, m.pool.isAllocated f = true → pool.stored? f = m.pool.stored? f) ∧
    pool.extent = m.pool.extent := by
  unfold tableFor? at ht
  cases hold : d.table? va with
  | some t' =>
    simp only [hold, Option.some.injEq, Prod.mk.injEq] at ht
    obtain ⟨rfl, rfl⟩ := ht
    obtain ⟨rest, hp, hset⟩ := references_setEntry hd hold
    exact ⟨⟨rest, h.accounts.perm (hp.append_right pins), hset⟩,
      fun e b => Directory.find?_setTable d e hold b, fun f _ => rfl, rfl⟩
  | none =>
    cases ha : m.pool.allocOwned? with
    | none => simp [hold, ha] at ht
    | some r =>
      obtain ⟨q, g⟩ := r
      simp only [hold, ha, Option.some.injEq, Prod.mk.injEq] at ht
      obtain ⟨rfl, rfl⟩ := ht
      obtain ⟨-, hw, hfree⟩ := FramePool.allocOwned?_spec h.accounts.sound ha
      refine ⟨⟨g :: m.references, ?_, fun e => references_setEntry_new hd hold g e⟩,
        fun e b => Directory.find?_setTable_new hold g e b,
        fun f hf => hw.stored?_of_isAllocated hfree hf, hw.extent⟩
      rw [PageTable.find?_empty]
      exact (h.accounts.allocOwned ha).1

/-- What a successful insertion amounts to. -/
theorem insert_eq_ok {m m' : Memory} {s : SpaceId} {f : Frame} {va : VirtAddr} {perm : Perm}
    (h : m.insert s f va perm = .ok m') :
    va.isAligned = true ∧ m.pool.isAllocated f = true ∧ ∃ d pool t pool',
      m.directory? s = some d ∧ tableFor? m.pool d va = some (pool, t) ∧
      pool.retain? f = some pool' ∧
      m' = { m.setDirectory s (some (d.setTable va (t.set va (some (.page f.addr perm))))) with
        pool := match t.find? va with
          | some old => (pool'.release old.frame).1
          | none => pool' } := by
  unfold insert at h
  split at h
  · cases h
  rename_i haligned
  split at h
  · cases h
  rename_i hallocated
  split at h
  · cases h
  split at h
  · cases h
  rename_i d hd
  split at h
  · cases h
  rename_i pool t ht
  split at h
  · cases h
  rename_i pool' hr
  refine ⟨by simpa using haligned, by simpa using hallocated, d, pool, t, pool', hd, ht, hr, ?_⟩
  exact (Except.ok.inj h).symm

theorem Keeps.insert {m m' : Memory} {s : SpaceId} {f : Frame} {va : VirtAddr} {perm : Perm}
    (h : m.insert s f va perm = .ok m') : m.Keeps m' := by
  obtain ⟨-, -, d, pool, t, pool', hd, -, -, rfl⟩ := insert_eq_ok h
  exact .setDirectory hd _ _

/-- A frame that was fresh is not fresh any more when it is mapped. -/
theorem Balanced.insert {m m' : Memory} {pins fresh : List Frame} {s : SpaceId} {f : Frame}
    {va : VirtAddr} {perm : Perm} (h : m.Balanced pins fresh) (hperm : perm.bits.toNat < 4096)
    (hi : m.insert s f va perm = .ok m') :
    (∃ fresh', (∀ g ∈ fresh', g ∈ fresh ∧ g ≠ f) ∧ m'.Balanced pins fresh') ∧
      m'.pool.extent = m.pool.extent := by
  obtain ⟨-, hf, d, pool, t, pool', hd, ht, hr, rfl⟩ := insert_eq_ok hi
  obtain ⟨⟨rest, hacc, hset⟩, -, -, hextent⟩ := tableFor?_spec h hd ht
  obtain ⟨c, -, -, -, -, hw⟩ := FramePool.retain?_spec hacc.sound hr
  have hsame : pool'.extent = m.pool.extent := hw.extent.trans hextent
  have hframe : PageEntry.references (some (.page f.addr perm)) = [f] := by
    show [(PageEntry.page f.addr perm).frame] = [f]
    rw [PageEntry.frame_page (h.fits_of_manages (FramePool.manages_of_isAllocated hf)) hperm]
  have hrefs := hset (some (.page f.addr perm))
  rw [hframe] at hrefs
  -- the new reference is counted, so the frame is called fresh no longer
  have htaken : pool'.Accounts (f :: (PageEntry.references (t.find? va) ++ rest ++ pins))
      (fresh.filter fun g => g ≠ f) := (hacc.retain hr).settle fun g hg => by
    have hne : g ≠ f := fun hgf => hg (hgf ▸ List.mem_cons_self)
    simp [hne]
  have hless : ∀ g ∈ fresh.filter (fun g => g ≠ f), g ∈ fresh ∧ g ≠ f := fun g hg => by
    simpa using hg
  cases hold : t.find? va with
  | none =>
    rw [hold] at htaken
    exact ⟨⟨_, hless, htaken.perm (hrefs.symm.append_right pins), hsame ▸ h.fits⟩, hsame⟩
  | some old =>
    rw [hold] at htaken
    -- what was mapped loses its reference after the new one was taken
    have hmid := htaken.perm (List.Perm.swap old.frame f (rest ++ pins))
    have hsame' := (FramePool.extent_release hmid.sound old.frame).trans hsame
    exact ⟨⟨_, fun g hg => hless g (List.mem_of_mem_filter hg),
      hmid.release.perm (hrefs.symm.append_right pins), hsame' ▸ h.fits⟩, hsame'⟩

/-- **Insertion.**  One page of one space maps the frame; the books stay balanced, and what is
  stored in frames with references stays. -/
theorem insert_spec {m m' : Memory} {pins fresh : List Frame} {s : SpaceId} {f : Frame}
    {va : VirtAddr} {perm : Perm} (h : m.Balanced pins fresh) (hfresh : ∀ g ∈ fresh, g = f)
    (hperm : perm.bits.toNat < 4096) (hi : m.insert s f va perm = .ok m') :
    m'.Balanced pins [] ∧ m.Touches m' s ∧
      (∃ d d', m.directory? s = some d ∧ m'.directory? s = some d' ∧
        ∀ b, d'.find? b = if va.SamePage b then some (.page f.addr perm) else d.find? b) ∧
      ∀ g ∈ m.references, m'.pool.stored? g = m.pool.stored? g := by
  have hbalanced : m'.Balanced pins [] := by
    obtain ⟨⟨fresh', hless, hb⟩, -⟩ := h.insert hperm hi
    obtain rfl : fresh' = [] := List.eq_nil_iff_forall_not_mem.2 fun g hg =>
      (hless g hg).2 (hfresh g (hless g hg).1)
    exact hb
  obtain ⟨-, -, d, pool, t, pool', hd, ht, hr, rfl⟩ := insert_eq_ok hi
  obtain ⟨⟨rest, hacc, -⟩, hfind, hstored, hextent⟩ := tableFor?_spec h hd ht
  obtain ⟨c, -, -, -, hsound, hw⟩ := FramePool.retain?_spec hacc.sound hr
  refine ⟨hbalanced, ?_⟩
  have hkept : ∀ g ∈ m.references, pool'.stored? g = m.pool.stored? g := by
    intro g hg
    rw [FramePool.stored?_retain hacc.sound hr g]
    have hcell := h.accounts.cell_of_mem (List.mem_append_left pins hg)
    exact hstored g (FramePool.isAllocated_iff.2 hcell)
  have hsame : pool'.extent = m.pool.extent := hw.extent.trans hextent
  cases t.find? va with
  | none =>
    exact ⟨touches_setDirectory hd hsame hkept,
      ⟨d, _, hd, directory?_setDirectory_self hd _, hfind _⟩, hkept⟩
  | some old =>
    have hout : ∀ g ∈ m.references, (pool'.release old.frame).1.stored? g = m.pool.stored? g :=
      fun g hg => (FramePool.stored?_release hsound old.frame g).trans (hkept g hg)
    have hsame' := (FramePool.extent_release hsound old.frame).trans hsame
    exact ⟨touches_setDirectory hd hsame' hout,
      ⟨d, _, hd, directory?_setDirectory_self hd _, hfind _⟩, hout⟩

/-- What a space maps after an insertion. -/
theorem lookup_insert {m m' : Memory} {pins : List Frame} {s : SpaceId} {f : Frame}
    {va : VirtAddr} {perm : Perm} (h : m.Balanced pins []) (hperm : perm.bits.toNat < 4096)
    (hi : m.insert s f va perm = .ok m') (b : VirtAddr) :
    m'.lookup s b = if va.SamePage b then some (f, perm.union .present) else m.lookup s b := by
  obtain ⟨-, hf, -⟩ := insert_eq_ok hi
  obtain ⟨-, -, ⟨d, d', hd, hd', hfind⟩, -⟩ :=
    insert_spec h (fun _ hg => absurd hg List.not_mem_nil) hperm hi
  have hfits := h.fits_of_manages (FramePool.manages_of_isAllocated hf)
  unfold lookup
  rw [hd, hd', Option.bind_some, Option.bind_some, hfind]
  split
  · rw [Option.bind_some, if_pos (PageEntry.isValid_page hfits hperm),
      PageEntry.frame_page hfits hperm, PageEntry.perm_page hfits hperm]
  · rfl

/-! ### Removal -/

/-- A removal finds nothing and does nothing, or finds an entry and clears it. -/
theorem remove_cases (m : Memory) (s : SpaceId) (va : VirtAddr) :
    (m.remove s va = m ∧ ∀ d, m.directory? s = some d → d.find? va = none) ∨
    ∃ d t old, m.directory? s = some d ∧ d.table? va = some t ∧
      t.find? va = some old ∧
      m.remove s va = { m.setDirectory s (some (d.setTable va (t.set va none))) with
        pool := (m.pool.release old.frame).1 } := by
  unfold remove
  split
  · rename_i hd
    exact Or.inl ⟨rfl, fun d hd' => by rw [hd] at hd'; cases hd'⟩
  rename_i d hd
  split
  · rename_i ht
    refine Or.inl ⟨rfl, fun e he => ?_⟩
    obtain rfl : d = e := by simpa [hd] using he
    simp only [Directory.find?, ht, Option.bind_none]
  rename_i t ht
  split
  · rename_i hold
    refine Or.inl ⟨rfl, fun e he => ?_⟩
    obtain rfl : d = e := by simpa [hd] using he
    simp only [Directory.find?, ht, Option.bind_some, hold]
  · rename_i old hold
    exact Or.inr ⟨d, t, old, hd, ht, hold, rfl⟩

theorem Keeps.remove (m : Memory) (s : SpaceId) (va : VirtAddr) : m.Keeps (m.remove s va) := by
  rcases m.remove_cases s va with ⟨hsame, -⟩ | ⟨d, t, old, hd, -, -, hout⟩
  · rw [hsame]
    exact .refl m
  · rw [hout]
    exact .setDirectory hd _ _

theorem Balanced.remove {m : Memory} {pins fresh : List Frame} (h : m.Balanced pins fresh)
    (s : SpaceId) (va : VirtAddr) :
    (∃ fresh', fresh' ⊆ fresh ∧ (m.remove s va).Balanced pins fresh') ∧
      (m.remove s va).pool.extent = m.pool.extent := by
  rcases m.remove_cases s va with ⟨hsame, -⟩ | ⟨d, t, old, hd, ht, hold, hout⟩
  · rw [hsame]
    exact ⟨⟨fresh, List.Subset.refl _, h⟩, rfl⟩
  · rw [hout]
    obtain ⟨rest, hp, hset⟩ := references_setEntry hd ht
    rw [hold] at hp
    have hacc : m.pool.Accounts (old.frame :: (rest ++ pins)) fresh :=
      h.accounts.perm (hp.append_right pins)
    have hsame := FramePool.extent_release hacc.sound old.frame
    exact ⟨⟨_, fun g hg => List.mem_of_mem_filter hg,
      hacc.release.perm ((hset none).symm.append_right pins), hsame ▸ h.fits⟩, hsame⟩

/-- **Removal.**  One page of one space maps nothing; the books stay balanced. -/
theorem remove_spec {m : Memory} {pins : List Frame} (h : m.Balanced pins []) (s : SpaceId)
    (va : VirtAddr) :
    (m.remove s va).Balanced pins [] ∧ m.Touches (m.remove s va) s ∧
      ∀ d, m.directory? s = some d → ∃ d', (m.remove s va).directory? s = some d' ∧
        ∀ b, d'.find? b = if va.SamePage b then none else d.find? b := by
  obtain ⟨⟨fresh', hnone, hbalanced⟩, -⟩ := h.remove s va
  obtain rfl := List.subset_nil.1 hnone
  refine ⟨hbalanced, ?_⟩
  rcases m.remove_cases s va with ⟨hsame, hnone⟩ | ⟨d, t, old, hd, ht, -, hout⟩
  · rw [hsame]
    refine ⟨Touches.refl m s, fun d hd => ⟨d, hd, fun b => ?_⟩⟩
    split
    · rename_i hb
      rw [← d.find?_congr hb]
      exact hnone d hd
    · rfl
  · rw [hout]
    have hsound := h.accounts.sound
    refine ⟨touches_setDirectory hd (FramePool.extent_release hsound old.frame) fun g _ =>
      FramePool.stored?_release hsound old.frame g, fun e he => ?_⟩
    obtain rfl : d = e := by simpa [hd] using he
    exact ⟨_, directory?_setDirectory_self hd _, Directory.find?_setTable d none ht⟩

/-! ### Fresh pages -/

/-- What is stored in frames with references stays when another pool keeps it. -/
theorem touches_pool {m : Memory} {pool : FramePool} (hextent : pool.extent = m.pool.extent)
    (h : ∀ f ∈ m.references, pool.stored? f = m.pool.stored? f) (s : SpaceId) :
    m.Touches { m with pool } s :=
  ⟨hextent, rfl, rfl, fun _ _ => rfl, fun _ _ _ hd f hf => h f (mem_references hd hf)⟩

theorem allocPage_spec {m m' : Memory} {pins fresh : List Frame} {f : Frame}
    (h : m.Balanced pins fresh) (ha : m.allocPage = .ok (m', f)) (s : SpaceId) :
    m'.Balanced pins (f :: fresh) ∧ m.Touches m' s ∧ f ∉ m'.references ++ pins ∧
      m'.pool.cell? f = some { inUse := true } := by
  unfold allocPage at ha
  cases hp : m.pool.alloc? with
  | none => simp [hp] at ha
  | some r =>
    obtain ⟨pool, g⟩ := r
    simp only [hp, Except.ok.injEq, Prod.mk.injEq] at ha
    obtain ⟨rfl, rfl⟩ := ha
    obtain ⟨-, hw, hfree⟩ := FramePool.alloc?_spec h.accounts.sound hp
    obtain ⟨hacc, hg⟩ := h.accounts.alloc hp
    refine ⟨⟨hacc, hw.extent ▸ h.fits⟩, touches_pool hw.extent (fun f hf => ?_) s, hg, ?_⟩
    · have hcell := h.accounts.cell_of_mem (List.mem_append_left pins hf)
      exact hw.stored?_of_isAllocated hfree (FramePool.isAllocated_iff.2 hcell)
    · rw [hw.cell g, if_pos rfl]

/-- A fresh page that could not be mapped is given back. -/
theorem freePage_fresh {m : Memory} {f : Frame} (hc : m.pool.cell? f = some { inUse := true }) :
    m.freePage f = { m with pool := m.pool.reclaim f } := by
  have hu : m.pool.isAllocated f = true := FramePool.isAllocated_iff.2 ⟨_, hc, rfl⟩
  have hz : m.pool.refCount f = 0 := FramePool.refCount_of_cell? hc
  simp only [freePage, hu, hz, BEq.rfl, Bool.and_self, if_true]

/-- What is given back is free, unless somebody refers to it. -/
theorem Balanced.freePage {m : Memory} {pins fresh : List Frame} (h : m.Balanced pins fresh)
    (f : Frame) : (∃ fresh', fresh' ⊆ fresh ∧ (m.freePage f).Balanced pins fresh') ∧
      (m.freePage f).pool.extent = m.pool.extent := by
  unfold Memory.freePage
  split
  · rename_i hloose
    rw [Bool.and_eq_true, beq_iff_eq] at hloose
    obtain ⟨hu, hz⟩ := hloose
    obtain ⟨c, hc, hused⟩ := FramePool.isAllocated_iff.1 hu
    have hzero : c.refs = 0 := (FramePool.refCount_of_cell? hc).symm.trans hz
    have hnot : f ∉ m.references ++ pins := by
      rw [← List.count_eq_zero, ← (h.accounts.counted f c hc).1, hzero]
      rfl
    obtain ⟨-, hw⟩ := FramePool.reclaim_spec h.accounts.sound hc hused hzero
    exact ⟨⟨_, fun g hg => List.mem_of_mem_filter hg, h.accounts.reclaim hnot hu,
      hw.extent ▸ h.fits⟩, hw.extent⟩
  · exact ⟨⟨fresh, List.Subset.refl _, h⟩, rfl⟩

/-- A page that the kernel keeps for itself is one that nobody refers to. -/
theorem Balanced.reserve {m m' : Memory} {pins fresh : List Frame} {f : Frame}
    (h : m.Balanced pins fresh) (hr : m.reserve = .ok (m', f)) :
    m'.Balanced (f :: pins) fresh ∧ m'.pool.extent = m.pool.extent ∧ m'.spaces = m.spaces ∧
      f ∉ m.references ++ pins := by
  unfold Memory.reserve at hr
  split at hr
  · cases hr
  · rename_i pool g ha
    obtain ⟨rfl, rfl⟩ := Prod.mk.inj (Except.ok.inj hr)
    obtain ⟨hacc, hg, -⟩ := h.accounts.allocOwned ha
    obtain ⟨-, hw, -⟩ := FramePool.allocOwned?_spec h.accounts.sound ha
    exact ⟨⟨hacc.perm List.perm_middle.symm, hw.extent ▸ h.fits⟩, hw.extent, rfl, hg⟩

theorem freePage_spec {m : Memory} {pins : List Frame} {f : Frame} (h : m.Balanced pins [f])
    (hf : f ∉ m.references ++ pins) (hc : m.pool.cell? f = some { inUse := true }) (s : SpaceId) :
    (m.freePage f).Balanced pins [] ∧ m.Touches (m.freePage f) s := by
  obtain ⟨-, hw⟩ := FramePool.reclaim_spec h.accounts.sound hc rfl rfl
  have hacc := h.accounts.reclaim hf (FramePool.isAllocated_iff.2 ⟨_, hc, rfl⟩)
  rw [freePage_fresh hc]
  exact ⟨⟨hacc.settle fun g _ => by simp, hw.extent ▸ h.fits⟩,
    touches_pool hw.extent (fun g _ => hw.stored?_eq hc rfl g) s⟩

theorem Keeps.allocPage {m m' : Memory} {f : Frame} (h : m.allocPage = .ok (m', f)) :
    m.Keeps m' := by
  unfold Memory.allocPage at h
  split at h
  · cases h
  · obtain ⟨rfl, -⟩ := Prod.mk.inj (Except.ok.inj h)
    exact .pool m _

theorem Keeps.freePage (m : Memory) (f : Frame) : m.Keeps (m.freePage f) := by
  unfold Memory.freePage
  split
  · exact .pool m _
  · exact .refl m

theorem Keeps.mapFresh (m : Memory) (s : SpaceId) (va : VirtAddr) (perm : Perm) :
    m.Keeps (m.mapFresh s va perm).1 := by
  unfold Memory.mapFresh
  split
  · exact .refl m
  · rename_i m' f ha
    have halloc := Keeps.allocPage ha
    split
    · exact halloc.trans (.freePage m' f)
    · rename_i m'' hi
      exact halloc.trans (.insert hi)

theorem Keeps.mapPages (s : SpaceId) (perm : Perm) : ∀ (n : Nat) (va : VirtAddr) (m : Memory),
    m.Keeps (mapPages s perm n va m).1
  | 0, _, m => .refl m
  | n + 1, va, m => by
    have hfirst := Keeps.mapFresh m s va perm
    unfold Memory.mapPages
    split
    · rename_i m' e heq
      rw [heq] at hfirst
      exact hfirst
    · rename_i m' heq
      rw [heq] at hfirst
      exact hfirst.trans (.mapPages s perm n _ m')

theorem Keeps.removePages (s : SpaceId) : ∀ (n : Nat) (va : VirtAddr) (m : Memory),
    m.Keeps (removePages s n va m)
  | 0, _, m => .refl m
  | n + 1, va, m => (Keeps.remove m s va).trans (.removePages s n _ (m.remove s va))

theorem mapFresh_spec {m : Memory} {pins : List Frame} (h : m.Balanced pins []) (s : SpaceId)
    (va : VirtAddr) {perm : Perm} (hperm : perm.bits.toNat < 4096) :
    (m.mapFresh s va perm).1.Balanced pins [] ∧ m.Touches (m.mapFresh s va perm).1 s := by
  unfold mapFresh
  split
  · exact ⟨h, Touches.refl m s⟩
  · rename_i m' f ha
    obtain ⟨hb, ht, hf, hc⟩ := allocPage_spec h ha s
    split
    · obtain ⟨hb', ht'⟩ := freePage_spec hb hf hc s
      exact ⟨hb', ht.trans ht'⟩
    · rename_i m'' hi
      obtain ⟨hb', ht', -⟩ := insert_spec hb (fun g hg => List.mem_singleton.1 hg) hperm hi
      exact ⟨hb', ht.trans ht'⟩

theorem mapPages_spec {pins : List Frame} {s : SpaceId} {perm : Perm}
    (hperm : perm.bits.toNat < 4096) : ∀ (n : Nat) (va : VirtAddr) {m : Memory},
    m.Balanced pins [] →
      (mapPages s perm n va m).1.Balanced pins [] ∧ m.Touches (mapPages s perm n va m).1 s
  | 0, _, m, h => ⟨h, Touches.refl m s⟩
  | n + 1, va, m, h => by
    obtain ⟨hb, ht⟩ := mapFresh_spec h s va hperm
    unfold mapPages
    split
    · rename_i m' e heq
      rw [heq] at hb ht
      exact ⟨hb, ht⟩
    · rename_i m' heq
      rw [heq] at hb ht
      obtain ⟨hb', ht'⟩ := mapPages_spec hperm n (.ofNat (va.toNat + pageSize)) hb
      exact ⟨hb', ht.trans ht'⟩

theorem removePages_spec {pins : List Frame} {s : SpaceId} : ∀ (n : Nat) (va : VirtAddr)
    {m : Memory}, m.Balanced pins [] →
      (removePages s n va m).Balanced pins [] ∧ m.Touches (removePages s n va m) s
  | 0, _, m, h => ⟨h, Touches.refl m s⟩
  | n + 1, va, m, h => by
    obtain ⟨hb, ht, -⟩ := remove_spec h s va
    obtain ⟨hb', ht'⟩ := removePages_spec n (.ofNat (va.toNat + pageSize)) hb
    exact ⟨hb', ht.trans ht'⟩

/-! ## Spaces come and go -/

/-- From `m` to `m'`, the directory `d` is added under the number of `s`. -/
structure Adds (m m' : Memory) (s : SpaceId) (d : Directory) : Prop where
  unused : m.directory? s = none
  added : m'.directory? s = some d
  others : ∀ r, r ≠ s → m'.directory? r = m.directory? r
  references : m'.references.Perm (d.references ++ m.references)

/-- From `m` to `m'`, the empty directory in the frame `f` gets the number of `s`. -/
structure Numbers (m m' : Memory) (s : SpaceId) (f : Frame) : Prop
    extends m.Adds m' s (Directory.empty f) where
  /-- A new number is only taken when all numbers are in use. -/
  size : m'.spaces.size = m.spaces.size ∨ m'.spaces.size = m.spaces.size + 1 ∧
    ∀ i, i < m.spaces.size → ∃ r : SpaceId, r.number.toNat = i ∧ (m.directory? r).isSome
  active : m'.active = m.active

/-- From `m` to `m'`, the space `s` comes into being, empty and in the frame `f`. -/
structure Opens (m m' : Memory) (s : SpaceId) (f : Frame) : Prop extends m.Numbers m' s f where
  extent : m'.pool.extent = m.pool.extent
  stored : ∀ g ∈ m.references, m'.pool.stored? g = m.pool.stored? g

theorem Numbers.ne_of_isSome {m m' : Memory} {r s : SpaceId} {f : Frame} (h : m.Numbers m' s f)
    (hr : (m.directory? r).isSome = true) : r ≠ s := by
  rintro rfl
  rw [h.unused] at hr
  cases hr

/-- A number that stands for no space is taken again. -/
theorem adds_setIfInBounds {m m' : Memory} {s : SpaceId} {d : Directory}
    (hlt : s.number.toNat < m.spaces.size) (hnone : m.spaces[s.number.toNat] = none)
    (hm : m'.spaces = m.spaces.setIfInBounds s.number.toNat (some d)) : m.Adds m' s d where
  unused := by
    rw [directory?, Array.getD_eq_getD_getElem?, Array.getElem?_eq_getElem hlt, hnone]
    rfl
  added := by
    rw [directory?, hm, Array.getD_eq_getD_getElem?, Array.getElem?_setIfInBounds_self_of_lt hlt]
    rfl
  others r hr := by
    unfold directory?
    rw [hm, Array.getD_eq_getD_getElem?, Array.getD_eq_getD_getElem?,
      Array.getElem?_setIfInBounds_ne (SpaceId.number_ne hr).symm]
  references := by
    have hi : s.number.toNat < m.spaces.toList.length := hlt
    let g : Option Directory → List Frame := fun d => (d.map Directory.references).getD []
    have hold : (m.spaces.toList.flatMap g).Perm
        ((m.spaces.toList.eraseIdx s.number.toNat).flatMap g) := by
      have hp := flatMap_perm_eraseIdx hi g
      rw [Array.getElem_toList, hnone] at hp
      exact hp
    show (m'.spaces.toList.flatMap g).Perm (g (some d) ++ m.spaces.toList.flatMap g)
    rw [hm, Array.toList_setIfInBounds]
    exact (flatMap_set_perm hi (some d) g).trans (hold.symm.append_left _)

/-- The first number beyond all numbers is taken. -/
theorem adds_push {m m' : Memory} {s : SpaceId} {d : Directory}
    (hs : s.number.toNat = m.spaces.size) (hm : m'.spaces = m.spaces.push (some d)) :
    m.Adds m' s d where
  unused := by
    rw [directory?, hs, Array.getD_eq_getD_getElem?, Array.getElem?_eq_none (Nat.le_refl _)]
    rfl
  added := by
    rw [directory?, hm, hs, Array.getD_eq_getD_getElem?, Array.getElem?_push_size]
    rfl
  others r hr := by
    have hne := SpaceId.number_ne hr
    rw [hs] at hne
    unfold directory?
    rw [hm, Array.getD_eq_getD_getElem?, Array.getD_eq_getD_getElem?, Array.getElem?_push,
      if_neg hne]
  references := by
    rw [Memory.references, hm, Array.toList_push, List.flatMap_append, List.flatMap_singleton]
    exact List.perm_append_comm

/-- Every number below the end stands for a space when no unused one is found. -/
theorem isSome_of_findIdx? {m : Memory} (hsize : m.spaces.size < 0x100000000)
    (hi : m.spaces.findIdx? (·.isNone) = none) {i : Nat} (hlt : i < m.spaces.size) :
    ∃ r : SpaceId, r.number.toNat = i ∧ (m.directory? r).isSome := by
  have hnum : (UInt32.ofNat i).toNat = i :=
    UInt32.toNat_ofNat_of_lt' (Nat.lt_trans hlt hsize)
  have hall := Array.findIdx?_eq_none_iff.1 hi m.spaces[i] (Array.getElem_mem hlt)
  refine ⟨⟨UInt32.ofNat i⟩, hnum, ?_⟩
  rw [directory?_ofNat hsize hlt]
  exact Option.isSome_iff_ne_none.2 fun hn => by simp [hn] at hall

/-- A new space has an unused number, whatever the books say. -/
theorem createSpace_numbers {m m' : Memory} {s : SpaceId} (hsize : m.spaces.size < 0x100000000)
    (hc : m.createSpace = .ok (m', s)) :
    ∃ pool f, m.pool.allocOwned? = some (pool, f) ∧ m'.pool = pool ∧ m.Numbers m' s f := by
  unfold createSpace at hc
  split at hc
  · cases hc
  rename_i pool f ha
  split at hc
  · -- an unused number is taken again
    rename_i i hi
    obtain ⟨rfl, rfl⟩ : _ ∧ _ := by simpa using hc
    obtain ⟨hlt, hnone, -⟩ := Array.findIdx?_eq_some_iff_getElem.1 hi
    have hnum : (UInt32.ofNat i).toNat = i := UInt32.toNat_ofNat_of_lt' (Nat.lt_trans hlt hsize)
    have hadds : m.Adds { m with pool, spaces := m.spaces.setIfInBounds i (some (.empty f)) }
        ⟨UInt32.ofNat i⟩ (.empty f) :=
      adds_setIfInBounds (by simpa only [hnum] using hlt) (by simpa [hnum] using hnone)
        (by rw [hnum])
    exact ⟨pool, f, ha, rfl, hadds, Or.inl Array.size_setIfInBounds, rfl⟩
  · -- all numbers are in use
    rename_i hi
    obtain ⟨rfl, rfl⟩ : _ ∧ _ := by simpa using hc
    have hadds : m.Adds { m with pool, spaces := m.spaces.push (some (.empty f)) }
        ⟨UInt32.ofNat m.spaces.size⟩ (.empty f) :=
      adds_push (UInt32.toNat_ofNat_of_lt' hsize) rfl
    exact ⟨pool, f, ha, rfl, hadds, Or.inr ⟨Array.size_push _, fun i hlt =>
      isSome_of_findIdx? hsize hi hlt⟩, rfl⟩

/-- **A new space** has an unused number, and its empty directory is in a frame that was free. -/
theorem createSpace_fresh {m m' : Memory} {pins fresh : List Frame} {s : SpaceId}
    (h : m.Balanced pins fresh) (hsize : m.spaces.size < 0x100000000)
    (hc : m.createSpace = .ok (m', s)) :
    m'.Balanced pins fresh ∧ ∃ f, m.Opens m' s f ∧ f ∉ m.references ++ pins := by
  obtain ⟨pool, f, ha, hpool, hnumbers⟩ := createSpace_numbers hsize hc
  obtain ⟨hacc, hfresh, -⟩ := h.accounts.allocOwned ha
  obtain ⟨-, hw, hfree⟩ := FramePool.allocOwned?_spec h.accounts.sound ha
  have hstored : ∀ g ∈ m.references, pool.stored? g = m.pool.stored? g := fun g hg =>
    hw.stored?_of_isAllocated hfree
      (FramePool.isAllocated_iff.2 (h.accounts.cell_of_mem (List.mem_append_left pins hg)))
  have hrefs := hnumbers.references
  rw [Directory.references_empty f] at hrefs
  subst hpool
  exact ⟨⟨hacc.perm (hrefs.symm.append_right pins), hw.extent ▸ h.fits⟩, f,
    ⟨hnumbers, hw.extent, hstored⟩, hfresh⟩

theorem createSpace_spec {m m' : Memory} {pins : List Frame} {s : SpaceId}
    (h : m.Balanced pins []) (hsize : m.spaces.size < 0x100000000)
    (hc : m.createSpace = .ok (m', s)) : m'.Balanced pins [] ∧ ∃ f, m.Opens m' s f := by
  obtain ⟨hb, f, ho, -⟩ := createSpace_fresh h hsize hc
  exact ⟨hb, f, ho⟩

/-- From `m` to `m'`, the space `s` ends. -/
structure Closes (m m' : Memory) (s : SpaceId) : Prop where
  extent : m'.pool.extent = m.pool.extent
  gone : m'.directory? s = none
  others : ∀ r, r ≠ s → m'.directory? r = m.directory? r
  stored : ∀ g, m'.pool.stored? g = m.pool.stored? g
  size : m'.spaces.size = m.spaces.size

theorem directory?_destroySpace (m : Memory) (s r : SpaceId) :
    (m.destroySpace s).directory? r = if r = s then none else m.directory? r := by
  unfold destroySpace
  split
  · rename_i hd
    split
    · rename_i hr
      rw [hr, hd]
    · rfl
  · rename_i d hd
    show (m.setDirectory s none).directory? r = _
    split
    · rename_i hr
      rw [hr, directory?_setDirectory_self hd none]
    · rename_i hr
      exact directory?_setDirectory_of_ne none hr

theorem size_destroySpace (m : Memory) (s : SpaceId) :
    (m.destroySpace s).spaces.size = m.spaces.size := by
  unfold destroySpace
  split
  · rfl
  · exact Array.size_setIfInBounds

/-- A live space that ends is no longer in force, and none comes into force. -/
theorem active_destroySpace {m : Memory} {r s : SpaceId} (hs : (m.directory? s).isSome = true)
    (h : (m.destroySpace s).active = some r) : r ≠ s ∧ m.active = some r := by
  obtain ⟨d, hd⟩ := Option.isSome_iff_exists.1 hs
  simp only [destroySpace, hd, Option.ite_none_left_eq_some] at h
  obtain ⟨hne, hr⟩ := h
  refine ⟨?_, hr⟩
  rintro rfl
  exact hne hr

theorem Balanced.destroySpace {m : Memory} {pins fresh : List Frame} (h : m.Balanced pins fresh)
    (s : SpaceId) : (∃ fresh', fresh' ⊆ fresh ∧ (m.destroySpace s).Balanced pins fresh') ∧
      m.Closes (m.destroySpace s) s := by
  unfold Memory.destroySpace
  split
  · rename_i hd
    exact ⟨⟨fresh, List.Subset.refl _, h⟩, rfl, hd, fun _ _ => rfl, fun _ => rfl, rfl⟩
  · rename_i d hd
    obtain ⟨rest, hp, hset, -⟩ := references_setDirectory hd
    have hacc : m.pool.Accounts (d.references ++ (rest ++ pins)) fresh := by
      rw [← List.append_assoc]
      exact h.accounts.perm (hp.append_right pins)
    have hsame := hacc.extent_releaseAll
    obtain ⟨fresh', hless, hleft⟩ := hacc.releaseAll
    exact ⟨⟨fresh', hless, hleft.perm ((hset none).symm.append_right pins), hsame ▸ h.fits⟩, hsame,
      directory?_setDirectory_self hd none, fun r hr => directory?_setDirectory_of_ne none hr,
      fun g => FramePool.stored?_releaseAll g hacc, Array.size_setIfInBounds⟩

theorem destroySpace_spec {m : Memory} {pins : List Frame} (h : m.Balanced pins [])
    (s : SpaceId) :
    (m.destroySpace s).Balanced pins [] ∧ m.Closes (m.destroySpace s) s := by
  obtain ⟨⟨fresh', hnone, hbalanced⟩, hcloses⟩ := h.destroySpace s
  obtain rfl := List.subset_nil.1 hnone
  exact ⟨hbalanced, hcloses⟩

end Exokernel.Memory
