/-
  Page tables as maps and as lists of references.

  Setting one entry does two things.  The map that a directory is changes at one page, and the
  list of references changes by the frames of the old and the new entry, besides the frame of a
  table that was missing.  Both are said once here, for all positions of the entry, with the
  list taken up to order: whatever the entry was, the other references are the same `rest`.
-/
import Exokernel.Directory
import Mathlib.Data.List.Basic
import Mathlib.Data.List.Perm.Basic

namespace Exokernel

/-! ## Pages -/

/-- Do the addresses lie in the same page, as far as a directory can tell? -/
def VirtAddr.SamePage (a b : VirtAddr) : Prop :=
  a.dirIndex = b.dirIndex ∧ a.tableIndex = b.tableIndex

instance (a b : VirtAddr) : Decidable (a.SamePage b) :=
  inferInstanceAs (Decidable (_ ∧ _))

/-- Below 4 GiB, where every address of a user is, a page is a page. -/
theorem VirtAddr.samePage_iff {a b : VirtAddr} (ha : a.toNat < 0x100000000)
    (hb : b.toNat < 0x100000000) :
    a.SamePage b ↔ a.toNat / pageSize = b.toNat / pageSize := by
  unfold SamePage dirIndex tableIndex
  rw [Fin.ext_iff, Fin.ext_iff]
  simp only [Fin.ofNat, tableSpan, pageSize, tableSize]
  omega

/-! ## Permissions -/

namespace Perm

theorem contains_union_right (p q : Perm) : (p.union q).contains q = true := by
  rw [contains, union, beq_iff_eq, ← UInt32.toNat_inj, UInt32.toNat_and, UInt32.toNat_or]
  refine Nat.eq_of_testBit_eq fun i => ?_
  rw [Nat.testBit_and, Nat.testBit_or]
  cases q.bits.toNat.testBit i <;> simp

/-- The bit that makes a page present gives no right to write it. -/
theorem contains_writable_union_present (p : Perm) :
    (p.union present).contains writable = p.contains writable := by
  have hbits : (p.bits ||| present.bits) &&& writable.bits = p.bits &&& writable.bits := by
    rw [← UInt32.toNat_inj, UInt32.toNat_and, UInt32.toNat_or, UInt32.toNat_and,
      Nat.and_or_distrib_right]
    exact Nat.or_zero _
  unfold contains union
  rw [hbits]

end Perm

/-! ## Entries -/

namespace PageEntry

/-- A frame that an entry has room for: its address is a page boundary below 4 GiB. -/
def Fits (f : Frame) : Prop := f.addr.toNat % pageSize = 0 ∧ f.addr.toNat < 0x100000000

/-- An entry is its frame and its permission, side by side. -/
theorem raw_page {f : Frame} {perm : Perm} (hf : Fits f) (hp : perm.bits.toNat < 4096) :
    (page f.addr perm).raw.toNat = f.addr.toNat + (perm.union .present).bits.toNat ∧
      (perm.union .present).bits.toNat < 4096 := by
  obtain ⟨ha, hb⟩ := hf
  have hlow : (perm.union .present).bits.toNat < 2 ^ 12 := by
    rw [Perm.union, UInt32.toNat_or]
    exact Nat.or_lt_two_pow hp (by decide)
  refine ⟨?_, hlow⟩
  have hw : f.addr.word.toUInt32.toNat = f.addr.toNat := by
    rw [UInt64.toNat_toUInt32]
    exact Nat.mod_eq_of_lt hb
  have hhigh : (highBits f.addr.word.toUInt32).toNat = 2 ^ 12 * (f.addr.toNat / 4096) := by
    have hm : (f.addr.word.toUInt32 % 4096).toNat = f.addr.toNat % 4096 := by
      rw [UInt32.toNat_mod, hw]
      rfl
    rw [highBits, UInt32.toNat_sub_of_le]
    · rw [hm, hw]
      omega
    · rw [UInt32.le_iff_toNat_le, hm, hw]
      omega
  rw [page, UInt32.toNat_or, hhigh, ← Nat.two_pow_add_eq_or_of_lt hlow]
  simp only [pageSize] at ha
  omega

theorem frame_page {f : Frame} {perm : Perm} (hf : Fits f) (hp : perm.bits.toNat < 4096) :
    (page f.addr perm).frame = f := by
  obtain ⟨hraw, hlow⟩ := raw_page hf hp
  obtain ⟨ha, hb⟩ := hf
  have hn : (page f.addr perm).addr.toNat = f.addr.toNat := by
    have hm : ((page f.addr perm).raw % 4096).toNat = (page f.addr perm).raw.toNat % 4096 := by
      rw [UInt32.toNat_mod]
      rfl
    show (highBits (page f.addr perm).raw).toNat = _
    rw [highBits, UInt32.toNat_sub_of_le]
    · rw [hm, hraw]
      simp only [pageSize] at ha
      omega
    · rw [UInt32.le_iff_toNat_le, hm]
      exact Nat.mod_le _ _
  cases f
  exact congrArg Frame.mk (PhysAddr.toNat_inj.1 hn)

theorem perm_page {f : Frame} {perm : Perm} (hf : Fits f) (hp : perm.bits.toNat < 4096) :
    (page f.addr perm).perm = perm.union .present := by
  obtain ⟨hraw, hlow⟩ := raw_page hf hp
  have ha := hf.1
  have hm : ((page f.addr perm).raw % 4096).toNat = (page f.addr perm).raw.toNat % 4096 := by
    rw [UInt32.toNat_mod]
    rfl
  have hbits : (page f.addr perm).raw % 4096 = (perm.union .present).bits := by
    apply UInt32.toNat_inj.1
    rw [hm, hraw]
    simp only [pageSize] at ha
    omega
  exact congrArg Perm.mk hbits

theorem isValid_page {f : Frame} {perm : Perm} (hf : Fits f) (hp : perm.bits.toNat < 4096) :
    (page f.addr perm).isValid = true := by
  rw [isValid, perm_page hf hp]
  exact perm.contains_union_right .present

end PageEntry

/-! ## Lists of references -/

/-- The frame that an entry refers to, as a list. -/
def PageEntry.references (e : Option PageEntry) : List Frame := (e.map PageEntry.frame).toList

section Lists

variable {α β : Type}

theorem flatMap_perm_eraseIdx {l : List α} {i : Nat} (h : i < l.length) (g : α → List β) :
    (l.flatMap g).Perm (g l[i] ++ (l.eraseIdx i).flatMap g) :=
  (List.getElem_cons_eraseIdx_perm h).symm.flatMap_right g

theorem flatMap_set_perm {l : List α} {i : Nat} (h : i < l.length) (a : α) (g : α → List β) :
    ((l.set i a).flatMap g).Perm (g a ++ (l.eraseIdx i).flatMap g) :=
  (List.set_perm_cons_eraseIdx h a).flatMap_right g

end Lists

namespace PageTable

theorem references_eq (t : PageTable) :
    t.references = t.entries.toList.flatMap PageEntry.references ++ [t.frame] := by
  rw [references, List.filterMap_eq_flatMap_toList]
  rfl

/-- The references of a table are those of one entry and a rest that this entry has no say in. -/
theorem references_set (t : PageTable) (va : VirtAddr) :
    ∃ rest, t.references.Perm (PageEntry.references (t.find? va) ++ rest) ∧
      ∀ e, (t.set va e).references.Perm (PageEntry.references e ++ rest) := by
  have hi : va.tableIndex.val < t.entries.toList.length := by
    rw [Vector.length_toList]
    exact va.tableIndex.isLt
  refine ⟨(t.entries.toList.eraseIdx va.tableIndex).flatMap PageEntry.references ++ [t.frame],
    ?_, fun e => ?_⟩
  · rw [references_eq, ← List.append_assoc]
    have hp := flatMap_perm_eraseIdx hi PageEntry.references
    rw [Vector.getElem_toList] at hp
    exact hp.append_right _
  · rw [references_eq, ← List.append_assoc]
    have hset : (t.set va e).entries.toList = t.entries.toList.set va.tableIndex e := by
      simp [set, Vector.toList_set]
    rw [hset]
    exact (flatMap_set_perm hi e PageEntry.references).append_right _

theorem references_set_empty (f : Frame) (va : VirtAddr) (e : Option PageEntry) :
    ((empty f).set va e).references.Perm (PageEntry.references e ++ [f]) := by
  have hi : va.tableIndex.val < tableSize := va.tableIndex.isLt
  rw [references_eq]
  have hset : ((empty f).set va e).entries.toList =
      (List.replicate tableSize none).set va.tableIndex e := by
    simp [set, empty, Vector.toList_set]
  have hnil : ∀ n,
      (List.replicate n (none : Option PageEntry)).flatMap PageEntry.references = [] := by
    intro n
    rw [List.flatMap_eq_nil_iff]
    intro x hx
    rw [List.eq_of_mem_replicate hx]
    rfl
  rw [hset]
  have hlen : va.tableIndex.val < (List.replicate tableSize (none : Option PageEntry)).length := by
    rw [List.length_replicate]
    exact hi
  have hp := flatMap_set_perm hlen e PageEntry.references
  rw [List.eraseIdx_replicate, if_pos hi, hnil, List.append_nil] at hp
  exact hp.append_right _

end PageTable

namespace Directory

theorem references_empty (f : Frame) : (empty f).references = [f] := by
  have hnil : (List.replicate tableSize (none : Option PageTable)).flatMap
      (fun t => (t.map PageTable.references).getD []) = [] := by
    rw [List.flatMap_eq_nil_iff]
    intro x hx
    rw [List.eq_of_mem_replicate hx]
    rfl
  show (Vector.replicate tableSize none).toList.flatMap _ ++ [f] = [f]
  rw [Vector.toList_replicate, hnil]
  rfl

/-- The references of a directory are those of one table and a rest that this table has no say
  in. -/
theorem references_setTable (d : Directory) (va : VirtAddr) :
    ∃ rest, d.references.Perm (((d.table? va).map PageTable.references).getD [] ++ rest) ∧
      ∀ t, (d.setTable va t).references.Perm (t.references ++ rest) := by
  have hi : va.dirIndex.val < d.tables.toList.length := by
    rw [Vector.length_toList]
    exact va.dirIndex.isLt
  let g : Option PageTable → List Frame := fun t => (t.map PageTable.references).getD []
  refine ⟨(d.tables.toList.eraseIdx va.dirIndex).flatMap g ++ [d.frame], ?_, fun t => ?_⟩
  · rw [references, ← List.append_assoc]
    have hp := flatMap_perm_eraseIdx hi g
    rw [Vector.getElem_toList] at hp
    exact hp.append_right _
  · rw [references, ← List.append_assoc]
    have hset : (d.setTable va t).tables.toList = d.tables.toList.set va.dirIndex (some t) := by
      simp [setTable, Vector.toList_set]
    rw [hset]
    exact (flatMap_set_perm hi (some t) g).append_right _

/-- Setting an entry of a table that is there. -/
theorem references_setEntry {d : Directory} {va : VirtAddr} {t : PageTable}
    (ht : d.table? va = some t) :
    ∃ rest, d.references.Perm (PageEntry.references (t.find? va) ++ rest) ∧
      ∀ e, (d.setTable va (t.set va e)).references.Perm (PageEntry.references e ++ rest) := by
  obtain ⟨outer, ho, hset⟩ := d.references_setTable va
  obtain ⟨inner, hi, hentry⟩ := t.references_set va
  rw [ht] at ho
  refine ⟨inner ++ outer, ?_, fun e => ?_⟩
  · rw [← List.append_assoc]
    exact ho.trans (hi.append_right _)
  · rw [← List.append_assoc]
    exact (hset _).trans ((hentry e).append_right _)

/-- Setting an entry where a table had to be added in the frame `f`. -/
theorem references_setEntry_new {d : Directory} {va : VirtAddr} (ht : d.table? va = none)
    (f : Frame) (e : Option PageEntry) :
    (d.setTable va ((PageTable.empty f).set va e)).references.Perm
      (PageEntry.references e ++ f :: d.references) := by
  obtain ⟨outer, ho, hset⟩ := d.references_setTable va
  rw [ht] at ho
  have hsub := (PageTable.references_set_empty f va e).append_right outer
  rw [List.append_assoc] at hsub
  exact (hset _).trans (hsub.trans ((ho.symm.cons f).append_left _))

theorem find?_congr (d : Directory) {a b : VirtAddr} (h : a.SamePage b) :
    d.find? a = d.find? b := by
  obtain ⟨hd, hp⟩ := h
  simp only [find?, table?, PageTable.find?, hd, hp]

/-- What a directory maps is among its references. -/
theorem frame_mem_references {d : Directory} {va : VirtAddr} {e : PageEntry}
    (h : d.find? va = some e) : e.frame ∈ d.references := by
  obtain ⟨t, ht, he⟩ := Option.bind_eq_some_iff.1 h
  obtain ⟨rest, hp, -⟩ := references_setEntry ht
  rw [hp.mem_iff, he]
  exact List.mem_append_left _ List.mem_cons_self

/-- Setting an entry where the table was missing changes the map at that page alone, too. -/
theorem find?_setTable_new {d : Directory} {va : VirtAddr} (ht : d.table? va = none) (f : Frame)
    (e : Option PageEntry) (b : VirtAddr) :
    (d.setTable va ((PageTable.empty f).set va e)).find? b =
      if va.SamePage b then e else d.find? b := by
  rw [find?_setTable_eq, PageTable.find?_set, PageTable.find?_empty]
  unfold VirtAddr.SamePage
  by_cases hd : va.dirIndex = b.dirIndex
  · have hb : d.find? b = none := by
      rw [find?_eq_bind d hd, ht, Option.bind_none]
    simp only [hd, hb, if_true, true_and]
  · simp only [hd, if_false, false_and]

end Directory

end Exokernel
