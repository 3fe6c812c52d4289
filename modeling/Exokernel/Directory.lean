/-
  Two-level page tables.

  A page directory has 1024 entries, each for 4 MiB of addresses; an entry in use leads to a
  page table of 1024 entries, each for one page.  The directory and every table occupy a frame
  of their own.

  `find?` reads the two levels as one map from addresses to entries, and `references` lists
  every frame to which the hierarchy holds a reference, once for each reference.
-/
import Exokernel.PageEntry

namespace Exokernel

/-- A second-level table: its own frame and its entries. -/
structure PageTable where
  frame : Frame
  entries : Vector (Option PageEntry) tableSize

/-- The root of a hierarchy: its own frame and its tables. -/
structure Directory where
  frame : Frame
  tables : Vector (Option PageTable) tableSize

namespace PageTable

/-- A table without entries in the frame `f`. -/
def empty (f : Frame) : PageTable := ⟨f, Vector.replicate tableSize none⟩

/-- The entry for the page around `va`. -/
def find? (t : PageTable) (va : VirtAddr) : Option PageEntry := t.entries[va.tableIndex]

/-- The table with the entry that covers `va` set or cleared. -/
def set (t : PageTable) (va : VirtAddr) (e : Option PageEntry) : PageTable :=
  { t with entries := t.entries.set va.tableIndex e }

/-- The frames that the table refers to: the mapped ones in the order of their entries, and
  its own. -/
def references (t : PageTable) : List Frame :=
  t.entries.toList.filterMap (fun e => e.map PageEntry.frame) ++ [t.frame]

@[simp] theorem find?_empty (f : Frame) (va : VirtAddr) : (empty f).find? va = none := by
  simp [find?, empty]

/-- Setting an entry changes the table at that entry alone. -/
theorem find?_set (t : PageTable) (va : VirtAddr) (e : Option PageEntry) (b : VirtAddr) :
    (t.set va e).find? b = if va.tableIndex = b.tableIndex then e else t.find? b := by
  by_cases h : va.tableIndex = b.tableIndex
  · simp [find?, set, h]
  · have h' : va.tableIndex.val ≠ b.tableIndex.val := fun e => h (Fin.ext e)
    simp [find?, set, h, h']

end PageTable

namespace Directory

/-- A directory without tables in the frame `f`. -/
def empty (f : Frame) : Directory := ⟨f, Vector.replicate tableSize none⟩

/-- The table that covers `va`. -/
def table? (d : Directory) (va : VirtAddr) : Option PageTable := d.tables[va.dirIndex]

/-- The entry for the page around `va`. -/
def find? (d : Directory) (va : VirtAddr) : Option PageEntry :=
  (d.table? va).bind fun t => t.find? va

/-- The directory with the table that covers `va` replaced. -/
def setTable (d : Directory) (va : VirtAddr) (t : PageTable) : Directory :=
  { d with tables := d.tables.set va.dirIndex (some t) }

/-- The frames that the hierarchy refers to, table by table, and last its own. -/
def references (d : Directory) : List Frame :=
  d.tables.toList.flatMap (fun t => (t.map PageTable.references).getD []) ++ [d.frame]

/-! ## The map that a directory is -/

@[simp] theorem find?_empty (f : Frame) (va : VirtAddr) : (empty f).find? va = none := by
  simp [find?, table?, empty]

theorem find?_setTable_eq (d : Directory) (va : VirtAddr) (t : PageTable) (b : VirtAddr) :
    (d.setTable va t).find? b = if va.dirIndex = b.dirIndex then t.find? b else d.find? b := by
  by_cases h : va.dirIndex = b.dirIndex
  · simp [find?, table?, setTable, h]
  · have h' : va.dirIndex.val ≠ b.dirIndex.val := fun e => h (Fin.ext e)
    simp [find?, table?, setTable, h, h']

/-- Two addresses that one table covers are looked up in that table. -/
theorem find?_eq_bind (d : Directory) {va b : VirtAddr} (h : va.dirIndex = b.dirIndex) :
    d.find? b = (d.table? va).bind fun t => t.find? b := by
  simp only [find?, table?, h]

/-- Setting an entry in the table that covers `va` changes the map at that page alone. -/
theorem find?_setTable (d : Directory) {t : PageTable} {va : VirtAddr} (e : Option PageEntry)
    (ht : d.table? va = some t) (b : VirtAddr) :
    (d.setTable va (t.set va e)).find? b =
      if va.dirIndex = b.dirIndex ∧ va.tableIndex = b.tableIndex then e else d.find? b := by
  rw [find?_setTable_eq, PageTable.find?_set]
  by_cases hd : va.dirIndex = b.dirIndex
  · have hb : d.find? b = t.find? b := by
      rw [find?_eq_bind d hd, ht, Option.bind_some]
    simp only [hd, hb, if_true, true_and]
  · simp only [hd, if_false, false_and]

end Directory

end Exokernel
