/-
  Memory as three maps.

  A space is looked at here in three ways: the frame of its directory, the frame of the table
  that covers an address, and the entry for a page.  These three maps say all that the list of
  references says, but frame by frame and page by page, so it can be followed what becomes of one
  of them.

  `Sets` is what mapping or unmapping a page does to the maps.  The map of entries changes at that
  page alone.  Directories and tables stay where they are, and a table that is added comes into a
  frame that was free.  In particular no frame that holds something ever becomes a table.
-/
import Exokernel.Proofs.Spaces

namespace Exokernel

/-! ## Positions -/

namespace VirtAddr

/-- Where the page around the address starts, as far as a directory can tell: below 4 GiB. -/
def pageStart (a : VirtAddr) : Nat := (a.dirIndex.val * tableSize + a.tableIndex.val) * pageSize

theorem pageStart_le (a : VirtAddr) : a.pageStart ≤ a.toNat := by
  unfold pageStart dirIndex tableIndex
  simp only [Fin.ofNat, tableSpan, pageSize, tableSize]
  omega

theorem SamePage.pageStart_eq {a b : VirtAddr} (h : a.SamePage b) : a.pageStart = b.pageStart := by
  unfold pageStart
  rw [h.1, h.2]

/-- The address of the page with the given entries in directory and table. -/
def ofIndices (i j : Fin tableSize) : VirtAddr := ofNat ((i.val * tableSize + j.val) * pageSize)

theorem toNat_ofIndices (i j : Fin tableSize) :
    (ofIndices i j).toNat = (i.val * tableSize + j.val) * pageSize := by
  apply toNat_ofNat
  have hi := i.isLt
  have hj := j.isLt
  simp only [tableSize, pageSize] at *
  omega

theorem indices_ofIndices (i j : Fin tableSize) :
    (ofIndices i j).dirIndex = i ∧ (ofIndices i j).tableIndex = j := by
  have hi := i.isLt
  have hj := j.isLt
  unfold dirIndex tableIndex
  rw [Fin.ext_iff, Fin.ext_iff, toNat_ofIndices]
  simp only [Fin.ofNat, tableSpan, pageSize, tableSize] at *
  omega

theorem pageStart_ofIndices (i j : Fin tableSize) :
    (ofIndices i j).pageStart = (i.val * tableSize + j.val) * pageSize := by
  obtain ⟨hi, hj⟩ := indices_ofIndices i j
  rw [pageStart, hi, hj]

end VirtAddr

/-! ## The references of a directory -/

theorem PageTable.find?_ofIndices (t : PageTable) (i j : Fin tableSize) :
    t.find? (.ofIndices i j) = t.entries.get j :=
  congrArg t.entries.get (VirtAddr.indices_ofIndices i j).2

theorem Directory.table?_ofIndices (d : Directory) (i j : Fin tableSize) :
    d.table? (.ofIndices i j) = d.tables.get i :=
  congrArg d.tables.get (VirtAddr.indices_ofIndices i j).1

/-- Addresses that share a directory entry share a table. -/
theorem Directory.table?_congr (d : Directory) {a b : VirtAddr} (h : a.dirIndex = b.dirIndex) :
    d.table? a = d.table? b := by
  simp only [table?, h]

theorem Directory.table?_setTable (d : Directory) (va : VirtAddr) (t : PageTable) (b : VirtAddr) :
    (d.setTable va t).table? b = if va.dirIndex = b.dirIndex then some t else d.table? b := by
  by_cases h : va.dirIndex = b.dirIndex
  · simp [table?, setTable, h]
  · have h' : va.dirIndex.val ≠ b.dirIndex.val := fun e => h (Fin.ext e)
    simp [table?, setTable, h, h']

theorem PageTable.mem_references_iff {t : PageTable} {f : Frame} :
    f ∈ t.references ↔ t.frame = f ∨ ∃ j : Fin tableSize, ∃ e,
      t.entries.get j = some e ∧ e.frame = f := by
  rw [references, List.mem_append, List.mem_filterMap, List.mem_singleton, or_comm]
  refine or_congr eq_comm ?_
  constructor
  · rintro ⟨e, he, hf⟩
    obtain ⟨j, hj, rfl⟩ := List.mem_iff_getElem.1 he
    rw [Vector.length_toList] at hj
    rw [Vector.getElem_toList] at hf
    obtain ⟨e, he, rfl⟩ := Option.map_eq_some_iff.1 hf
    exact ⟨⟨j, hj⟩, e, he, rfl⟩
  · rintro ⟨j, e, he, rfl⟩
    refine ⟨some e, ?_, rfl⟩
    rw [← he]
    exact List.mem_iff_getElem.2 ⟨j.val, by simp, Vector.getElem_toList _⟩

theorem Directory.mem_references_iff {d : Directory} {f : Frame} :
    f ∈ d.references ↔ d.frame = f ∨ (∃ va t, d.table? va = some t ∧ t.frame = f) ∨
      ∃ va e, d.find? va = some e ∧ e.frame = f := by
  rw [references, List.mem_append, List.mem_flatMap, List.mem_singleton, or_comm]
  refine or_congr eq_comm ?_
  constructor
  · rintro ⟨o, ho, hf⟩
    obtain ⟨i, hi, rfl⟩ := List.mem_iff_getElem.1 ho
    rw [Vector.length_toList] at hi
    rw [Vector.getElem_toList] at hf
    cases ht : d.tables[i] with
    | none => simp [ht] at hf
    | some t =>
      rw [ht] at hf
      have hfind : ∀ j, d.table? (.ofIndices ⟨i, hi⟩ j) = some t := fun j =>
        (d.table?_ofIndices ⟨i, hi⟩ j).trans ht
      rcases PageTable.mem_references_iff.1 hf with hf | ⟨j, e, he, hf⟩
      · exact Or.inl ⟨_, t, hfind 0, hf⟩
      · refine Or.inr ⟨.ofIndices ⟨i, hi⟩ j, e, ?_, hf⟩
        rw [find?, hfind, Option.bind_some, PageTable.find?_ofIndices, he]
  · intro h
    obtain ⟨va, t, ht, hf⟩ : ∃ va t, d.table? va = some t ∧ f ∈ t.references := by
      rcases h with ⟨va, t, ht, hf⟩ | ⟨va, e, he, hf⟩
      · exact ⟨va, t, ht, PageTable.mem_references_iff.2 (Or.inl hf)⟩
      · obtain ⟨t, ht, he⟩ := Option.bind_eq_some_iff.1 he
        exact ⟨va, t, ht, PageTable.mem_references_iff.2 (Or.inr ⟨va.tableIndex, e, he, hf⟩)⟩
    refine ⟨some t, ?_, hf⟩
    rw [← ht]
    exact List.mem_iff_getElem.2 ⟨va.dirIndex.val, by simp, by simp [table?]⟩

namespace Memory

variable {m m' m'' : Memory} {pins fresh : List Frame} {r s : SpaceId} {va b : VirtAddr}
  {f g : Frame} {perm : Perm} {e : Option PageEntry}

/-! ## The three maps -/

/-- The frame of the directory of a space. -/
def root? (m : Memory) (s : SpaceId) : Option Frame := (m.directory? s).map Directory.frame

/-- The frame of the table that covers an address. -/
def table? (m : Memory) (s : SpaceId) (va : VirtAddr) : Option Frame :=
  (m.directory? s).bind fun d => (d.table? va).map PageTable.frame

/-- The entry for the page around an address. -/
def find? (m : Memory) (s : SpaceId) (va : VirtAddr) : Option PageEntry :=
  (m.directory? s).bind fun d => d.find? va

/-- The frame holds the directory or a table of a live space. -/
def Structural (m : Memory) (f : Frame) : Prop :=
  (∃ s, m.root? s = some f) ∨ ∃ s va, m.table? s va = some f

theorem root?_congr (h : m'.directory? s = m.directory? s) : m'.root? s = m.root? s := by
  rw [root?, root?, h]

theorem table?_congr (h : m'.directory? s = m.directory? s) (va : VirtAddr) :
    m'.table? s va = m.table? s va := by
  rw [table?, table?, h]

theorem find?_congr (h : m'.directory? s = m.directory? s) (va : VirtAddr) :
    m'.find? s va = m.find? s va := by
  rw [find?, find?, h]

theorem lookup_eq_find? (m : Memory) (s : SpaceId) (va : VirtAddr) : m.lookup s va =
    (m.find? s va).bind fun e => if e.isValid then some (e.frame, e.perm) else none := by
  rw [lookup, find?, Option.bind_assoc]

theorem find?_of_lookup (h : m.lookup s va = some (f, perm)) :
    ∃ x, m.find? s va = some x ∧ x.frame = f := by
  obtain ⟨d, x, hd, hx, -, hf, -⟩ := lookup_eq_some_iff.1 h
  exact ⟨x, by rw [find?, hd, Option.bind_some, hx], hf⟩

/-- A new space has no entries. -/
theorem Numbers.find?_eq_none (h : m.Numbers m' s f) (va : VirtAddr) : m'.find? s va = none := by
  rw [find?, h.added, Option.bind_some, Directory.find?_empty]

theorem Numbers.lookup_eq_none (h : m.Numbers m' s f) (va : VirtAddr) :
    m'.lookup s va = none := by
  rw [lookup_eq_find?, h.find?_eq_none, Option.bind_none]

/-- Addresses in one page have one entry. -/
theorem find?_of_samePage (h : va.SamePage b) : m.find? s va = m.find? s b := by
  unfold find?
  exact congrArg (m.directory? s).bind (funext fun d => d.find?_congr h)

theorem lookup_of_samePage (h : va.SamePage b) : m.lookup s va = m.lookup s b := by
  rw [lookup_eq_find?, lookup_eq_find?, find?_of_samePage h]

/-- Every reference is that of a directory, of a table or of an entry. -/
theorem mem_references_iff (hsize : m.spaces.size < 0x100000000) :
    f ∈ m.references ↔ m.Structural f ∨ ∃ s va e, m.find? s va = some e ∧ e.frame = f := by
  have hspace : f ∈ m.references ↔ ∃ s d, m.directory? s = some d ∧ f ∈ d.references := by
    constructor
    · exact exists_of_mem_references hsize
    · rintro ⟨s, d, hd, hf⟩
      exact mem_references hd hf
  rw [hspace]
  constructor
  · rintro ⟨s, d, hd, hf⟩
    rcases Directory.mem_references_iff.1 hf with hf | ⟨va, t, ht, hf⟩ | ⟨va, e, he, hf⟩
    · exact Or.inl (Or.inl ⟨s, by rw [root?, hd, Option.map_some, hf]⟩)
    · exact Or.inl (Or.inr ⟨s, va, by rw [table?, hd, Option.bind_some, ht, Option.map_some, hf]⟩)
    · exact Or.inr ⟨s, va, e, by rw [find?, hd, Option.bind_some, he], hf⟩
  · rintro ((⟨s, hs⟩ | ⟨s, va, hs⟩) | ⟨s, va, e, hs, hf⟩)
    · obtain ⟨d, hd, hf⟩ := Option.map_eq_some_iff.1 hs
      exact ⟨s, d, hd, Directory.mem_references_iff.2 (Or.inl hf)⟩
    · obtain ⟨d, hd, ht⟩ := Option.bind_eq_some_iff.1 hs
      obtain ⟨t, ht, hf⟩ := Option.map_eq_some_iff.1 ht
      exact ⟨s, d, hd, Directory.mem_references_iff.2 (Or.inr (Or.inl ⟨va, t, ht, hf⟩))⟩
    · obtain ⟨d, hd, he⟩ := Option.bind_eq_some_iff.1 hs
      exact ⟨s, d, hd, Directory.mem_references_iff.2 (Or.inr (Or.inr ⟨va, e, he, hf⟩))⟩

/-- A frame is in use for a directory or a table, for an entry, or because it is reserved. -/
theorem Balanced.isAllocated_iff_maps (h : m.Balanced pins [])
    (hsize : m.spaces.size < 0x100000000) : m.pool.isAllocated f = true ↔
      m.Structural f ∨ (∃ s va e, m.find? s va = some e ∧ e.frame = f) ∨ f ∈ pins := by
  rw [h.accounts.isAllocated_iff, List.mem_append, mem_references_iff hsize, or_assoc]

/-! ## Setting an entry -/

/-- From `m` to `m'`, the entry for the page around `va` in the space `s` becomes `e`. -/
structure Sets (m m' : Memory) (s : SpaceId) (va : VirtAddr) (e : Option PageEntry) : Prop where
  size : m'.spaces.size = m.spaces.size
  root : ∀ r, m'.root? r = m.root? r
  /-- Tables stay. -/
  table : ∀ r b f, m.table? r b = some f → m'.table? r b = some f
  /-- A new table is one of this space, in a frame that was free. -/
  added : ∀ r b f, m'.table? r b = some f →
    m.table? r b = some f ∨ r = s ∧ m.pool.isAllocated f = false
  entry : ∀ r b, m'.find? r b = if r = s ∧ va.SamePage b then e else m.find? r b
  /-- What is stored in frames in use stays. -/
  stored : ∀ f, m.pool.isAllocated f = true → m'.pool.stored? f = m.pool.stored? f

theorem Sets.entry_self (h : m.Sets m' s va e) (hb : va.SamePage b) : m'.find? s b = e := by
  rw [h.entry, if_pos ⟨rfl, hb⟩]

theorem Sets.entry_of_ne (h : m.Sets m' s va e) (hb : r = s → ¬ va.SamePage b) :
    m'.find? r b = m.find? r b := by
  rw [h.entry, if_neg fun hrb => hb hrb.1 hrb.2]

/-- No frame in use becomes a table. -/
theorem Sets.structural (h : m.Sets m' s va e) (hf : m.pool.isAllocated f = true) :
    m'.Structural f ↔ m.Structural f := by
  constructor
  · rintro (⟨r, hr⟩ | ⟨r, b, hr⟩)
    · rw [h.root] at hr
      exact Or.inl ⟨r, hr⟩
    · rcases h.added r b f hr with hold | ⟨-, hfree⟩
      · exact Or.inr ⟨r, b, hold⟩
      · exact absurd (hfree.symm.trans hf) Bool.false_ne_true
  · rintro (⟨r, hr⟩ | ⟨r, b, hr⟩)
    · rw [← h.root] at hr
      exact Or.inl ⟨r, hr⟩
    · exact Or.inr ⟨r, b, h.table r b f hr⟩

/-- The directory of one space is replaced by one with the same tables, or one more. -/
theorem sets_setDirectory {d : Directory} {t : PageTable} {pool : FramePool}
    (hd : m.directory? s = some d)
    (htable : ∀ t', d.table? va = some t' → t.frame = t'.frame)
    (hnew : d.table? va = none → m.pool.isAllocated t.frame = false)
    (hentry : ∀ b, (d.setTable va t).find? b = if va.SamePage b then e else d.find? b)
    (hstored : ∀ f, m.pool.isAllocated f = true → pool.stored? f = m.pool.stored? f) :
    m.Sets { m.setDirectory s (some (d.setTable va t)) with pool } s va e := by
  have hself : (m.setDirectory s (some (d.setTable va t))).directory? s =
      some (d.setTable va t) := directory?_setDirectory_self hd _
  have hother : ∀ r, r ≠ s →
      (m.setDirectory s (some (d.setTable va t))).directory? r = m.directory? r :=
    fun r hr => directory?_setDirectory_of_ne _ hr
  refine ⟨Array.size_setIfInBounds, fun r => ?_, fun r b f hf => ?_, fun r b f hf => ?_,
    fun r b => ?_, hstored⟩
  · by_cases hr : r = s
    · subst hr
      show ((m.setDirectory r (some (d.setTable va t))).directory? r).map Directory.frame = _
      rw [hself, root?, hd]
      rfl
    · exact root?_congr (hother r hr)
  · by_cases hr : r = s
    · subst hr
      rw [table?, hd, Option.bind_some] at hf
      show ((m.setDirectory r (some (d.setTable va t))).directory? r).bind _ = _
      rw [hself, Option.bind_some, Directory.table?_setTable]
      split
      · rename_i hb
        rw [← d.table?_congr hb] at hf
        obtain ⟨t', ht', rfl⟩ := Option.map_eq_some_iff.1 hf
        rw [Option.map_some, htable t' ht']
      · exact hf
    · rw [← hf]
      exact table?_congr (hother r hr) b
  · by_cases hr : r = s
    · subst hr
      change ((m.setDirectory r (some (d.setTable va t))).directory? r).bind _ = _ at hf
      rw [hself, Option.bind_some, Directory.table?_setTable] at hf
      rw [table?, hd, Option.bind_some]
      split at hf
      · rename_i hb
        obtain rfl := Option.some.inj hf
        rw [← d.table?_congr hb]
        cases ht : d.table? va with
        | none => exact Or.inr ⟨rfl, hnew ht⟩
        | some t' => exact Or.inl (by rw [Option.map_some, htable t' ht])
      · exact Or.inl hf
    · rw [← hf]
      exact Or.inl (table?_congr (hother r hr) b).symm
  · by_cases hr : r = s
    · subst hr
      show ((m.setDirectory r (some (d.setTable va t))).directory? r).bind _ = _
      rw [hself, Option.bind_some, hentry, find?, hd, Option.bind_some]
      simp only [true_and]
    · rw [if_neg fun h => hr h.1]
      exact find?_congr (hother r hr) b

/-- The table for an address is there, or it is added in a frame that was free. -/
theorem tableFor?_frame {d : Directory} {pool : FramePool} {t : PageTable}
    (hs : m.pool.Sound) (ht : tableFor? m.pool d va = some (pool, t)) :
    (∀ t', d.table? va = some t' → t.frame = t'.frame) ∧
      (d.table? va = none → m.pool.isAllocated t.frame = false) := by
  unfold tableFor? at ht
  cases hold : d.table? va with
  | some t' =>
    simp only [hold, Option.some.injEq, Prod.mk.injEq] at ht
    obtain ⟨-, rfl⟩ := ht
    refine ⟨fun t'' h => ?_, fun h => (by cases h)⟩
    rw [Option.some.inj h]
  | none =>
    cases ha : m.pool.allocOwned? with
    | none => simp [hold, ha] at ht
    | some taken =>
      simp only [hold, ha, Option.some.injEq, Prod.mk.injEq] at ht
      obtain ⟨-, rfl⟩ := ht
      obtain ⟨-, -, hfree⟩ := FramePool.allocOwned?_spec hs ha
      exact ⟨fun t' h => (by cases h), fun _ => FramePool.isAllocated_eq_false hfree⟩

/-- **Mapping a page sets its entry.** -/
theorem insert_sets (h : m.Balanced pins fresh) (hi : m.insert s f va perm = .ok m') :
    m.Sets m' s va (some (.page f.addr perm)) := by
  obtain ⟨-, -, d, pool, t, pool', hd, ht, hr, rfl⟩ := insert_eq_ok hi
  obtain ⟨⟨rest, hacc, -⟩, hfind, hstored, -⟩ := tableFor?_spec h hd ht
  obtain ⟨htable, hnew⟩ := tableFor?_frame h.accounts.sound ht
  obtain ⟨c, -, -, -, hs', -⟩ := FramePool.retain?_spec hacc.sound hr
  refine sets_setDirectory hd (fun t' ht' => htable t' ht') (fun hn => hnew hn) (hfind _) ?_
  intro g hg
  have hkept : pool'.stored? g = m.pool.stored? g :=
    (FramePool.stored?_retain hacc.sound hr g).trans (hstored g hg)
  cases t.find? va with
  | none => exact hkept
  | some old => exact (FramePool.stored?_release hs' old.frame g).trans hkept

/-- **Unmapping a page clears its entry.** -/
theorem remove_sets (h : m.Balanced pins fresh) (s : SpaceId) (va : VirtAddr) :
    m.Sets (m.remove s va) s va none := by
  rcases m.remove_cases s va with ⟨hsame, hnone⟩ | ⟨d, t, old, hd, ht, -, hout⟩
  · rw [hsame]
    refine ⟨rfl, fun _ => rfl, fun _ _ _ hf => hf, fun _ _ _ hf => Or.inl hf, fun r b => ?_,
      fun _ _ => rfl⟩
    split
    · rename_i hrb
      obtain ⟨rfl, hb⟩ := hrb
      refine Option.bind_eq_none_iff.2 fun d hd => ?_
      rw [← d.find?_congr hb]
      exact hnone d hd
    · rfl
  · rw [hout]
    have hframe : ∀ t', d.table? va = some t' → t.frame = t'.frame := by
      intro t' ht'
      rw [Option.some.inj (ht.symm.trans ht')]
    refine sets_setDirectory hd hframe (fun hn => ?_) (Directory.find?_setTable d none ht)
      fun g _ => FramePool.stored?_release h.accounts.sound _ g
    rw [ht] at hn
    cases hn

/-! ## The frames of one space -/

/-- The frame holds the directory or a table of the space. -/
def StructuralIn (m : Memory) (s : SpaceId) (f : Frame) : Prop :=
  m.root? s = some f ∨ ∃ va, m.table? s va = some f

/-- No two spaces have their directories or tables in one frame. -/
def Separate (m : Memory) : Prop :=
  ∀ r s f, m.StructuralIn r f → m.StructuralIn s f → r = s

theorem structural_iff : m.Structural f ↔ ∃ s, m.StructuralIn s f :=
  exists_or.symm

theorem StructuralIn.mem_references (h : m.StructuralIn s f) : f ∈ m.references := by
  rcases h with hroot | ⟨va, htable⟩
  · obtain ⟨d, hd, hf⟩ := Option.map_eq_some_iff.1 hroot
    exact Memory.mem_references hd (Directory.mem_references_iff.2 (Or.inl hf))
  · obtain ⟨d, hd, ht⟩ := Option.bind_eq_some_iff.1 htable
    obtain ⟨t, ht, hf⟩ := Option.map_eq_some_iff.1 ht
    exact Memory.mem_references hd
      (Directory.mem_references_iff.2 (Or.inr (Or.inl ⟨va, t, ht, hf⟩)))

theorem StructuralIn.isAllocated (h : m.StructuralIn s f) (hb : m.Balanced pins fresh) :
    m.pool.isAllocated f = true :=
  FramePool.isAllocated_iff.2
    (hb.accounts.cell_of_mem (List.mem_append_left pins h.mem_references))

theorem StructuralIn.of_directory (h : m'.StructuralIn s f)
    (hd : ∀ d, m'.directory? s = some d → m.directory? s = some d) : m.StructuralIn s f := by
  rcases h with hroot | ⟨va, htable⟩
  · obtain ⟨d, hds, hf⟩ := Option.map_eq_some_iff.1 hroot
    exact Or.inl (Option.map_eq_some_iff.2 ⟨d, hd d hds, hf⟩)
  · obtain ⟨d, hds, hf⟩ := Option.bind_eq_some_iff.1 htable
    exact Or.inr ⟨va, Option.bind_eq_some_iff.2 ⟨d, hd d hds, hf⟩⟩

/-- What is left when some directories are gone is separate. -/
theorem Separate.of_directories (h : m.Separate)
    (hd : ∀ s d, m'.directory? s = some d → m.directory? s = some d) : m'.Separate :=
  fun r s f hr hs => h r s f (hr.of_directory (hd r)) (hs.of_directory (hd s))

theorem Separate.destroySpace (h : m.Separate) (s : SpaceId) : (m.destroySpace s).Separate := by
  refine h.of_directories fun r d hd => ?_
  rw [directory?_destroySpace] at hd
  split at hd
  · cases hd
  · exact hd

theorem Sets.separate (hs : m.Sets m' s va e) (h : m.Separate) (hb : m.Balanced pins fresh) :
    m'.Separate := by
  have hback : ∀ r f, m'.StructuralIn r f →
      m.StructuralIn r f ∨ r = s ∧ m.pool.isAllocated f = false := by
    rintro r f (hroot | ⟨b, htable⟩)
    · exact Or.inl (Or.inl ((hs.root r).symm.trans hroot))
    · exact (hs.added r b f htable).imp_left fun hold => Or.inr ⟨b, hold⟩
  intro r t f hr ht
  -- a new table is in a frame that was free, so in no frame of another space
  rcases hback r f hr with hr | ⟨hr, hfree⟩ <;> rcases hback t f ht with ht | ⟨ht, hfree'⟩
  · exact h r t f hr ht
  · exact absurd ((hr.isAllocated hb).symm.trans hfree') Bool.false_ne_true.symm
  · exact absurd ((ht.isAllocated hb).symm.trans hfree) Bool.false_ne_true.symm
  · rw [hr, ht]

theorem Separate.createSpace (h : m.Separate) (hb : m.Balanced pins fresh)
    (hsize : m.spaces.size < 0x100000000) (hc : m.createSpace = .ok (m', s)) : m'.Separate := by
  obtain ⟨-, g, hopens, hfree⟩ := createSpace_fresh hb hsize hc
  -- the directory is in a frame that nothing referred to
  have hold : ∀ r f, r ≠ s → m'.StructuralIn r f → m.StructuralIn r f ∧ f ≠ g := by
    intro r f hr hf
    have hbefore := hf.of_directory fun d hd => (hopens.others r hr).symm.trans hd
    refine ⟨hbefore, ?_⟩
    rintro rfl
    exact hfree (List.mem_append_left pins hbefore.mem_references)
  have hnew : ∀ f, m'.StructuralIn s f → f = g := by
    rintro f (hroot | ⟨va, htable⟩)
    · rw [root?, hopens.added] at hroot
      exact (Option.some.inj hroot).symm
    · rw [table?, hopens.added] at htable
      simp [Directory.table?, Directory.empty] at htable
  intro r t f hr ht
  by_cases hrs : r = s <;> by_cases hts : t = s
  · rw [hrs, hts]
  · exact absurd (hnew f (hrs ▸ hr)) (hold t f hts ht).2
  · exact absurd (hnew f (hts ▸ ht)) (hold r f hrs hr).2
  · exact h r t f (hold r f hrs hr).1 (hold t f hts ht).1

/-! ## Fresh pages -/

/-- Which frames are in use after one that was free was taken. -/
theorem isAllocated_of_rewrites {p p' : FramePool} {c : Cell} (h : p.Rewrites p' f c)
    (hc : c.inUse = true) (g : Frame) :
    p'.isAllocated g = true ↔ g = f ∨ p.isAllocated g = true := by
  rw [FramePool.isAllocated_iff, FramePool.isAllocated_iff, h.cell g]
  by_cases hg : g = f
  · simp [hg, hc]
  · simp [hg]

/-- From `m` to `m'`, a fresh page in the frame `f` is mapped. -/
structure MapsFresh (m m' : Memory) (s : SpaceId) (va : VirtAddr) (perm : Perm) (f : Frame) :
    Prop where
  aligned : va.isAligned = true
  free : m.pool.isAllocated f = false
  fits : PageEntry.Fits f
  /-- The frame becomes no table on the way. -/
  loose : ¬ m'.Structural f
  zero : m'.pool.stored? f = some .zero
  sets : m.Sets m' s va (some (.page f.addr perm))

/-- **A fresh page** is in a frame that was free. -/
theorem mapFresh_sets (h : m.Balanced pins []) (hsize : m.spaces.size < 0x100000000)
    (hf : m.mapFresh s va perm = (m', none)) : ∃ f, m.MapsFresh m' s va perm f := by
  unfold mapFresh at hf
  split at hf
  · cases hf
  rename_i m₁ f ha
  split at hf
  · cases hf
  rename_i m₂ hi
  obtain rfl : m₂ = m' := (Prod.mk.inj hf).1
  obtain ⟨hb, -, hnot, hcell⟩ := allocPage_spec h ha s
  have hsets := insert_sets hb hi
  have hused : m₁.pool.isAllocated f = true := FramePool.isAllocated_iff.2 ⟨_, hcell, rfl⟩
  -- before the page is mapped, only its frame is different
  unfold allocPage at ha
  cases hp : m.pool.alloc? with
  | none => simp [hp] at ha
  | some taken =>
  obtain ⟨pool, g⟩ := taken
  simp only [hp, Except.ok.injEq, Prod.mk.injEq] at ha
  obtain ⟨rfl, rfl⟩ := ha
  obtain ⟨-, hw, hfree⟩ := FramePool.alloc?_spec h.accounts.sound hp
  have hgrows := isAllocated_of_rewrites hw rfl
  have hfits := hb.fits_of_manages (FramePool.manages_of_isAllocated hused)
  refine ⟨g, (insert_eq_ok hi).1, FramePool.isAllocated_eq_false hfree, hfits, ?_, ?_, ?_⟩
  · rw [hsets.structural hused]
    intro hstructural
    exact hnot (List.mem_append_left _ ((mem_references_iff hsize).2 (Or.inl hstructural)))
  · rw [hsets.stored g hused, FramePool.stored?, hcell]
    rfl
  · refine ⟨hsets.size, hsets.root, hsets.table, fun r b x hx => ?_, hsets.entry, fun x hx => ?_⟩
    · rcases hsets.added r b x hx with hold | ⟨hr, hnew⟩
      · exact Or.inl hold
      · refine Or.inr ⟨hr, Bool.eq_false_iff.2 fun hu => ?_⟩
        exact Bool.false_ne_true (hnew.symm.trans ((hgrows x).2 (Or.inr hu)))
    · rw [hsets.stored x ((hgrows x).2 (Or.inr hx))]
      exact hw.stored?_of_isAllocated hfree hx

end Memory

end Exokernel
