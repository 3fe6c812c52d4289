/-
  A heap that could not grow.

  When memory runs out while a heap grows, the kernel takes back the pages that it had mapped.
  Is everything then as it was?  It is, apart from tables that were added on the way, if there
  was nothing in the way: `heap_restored_iff`.  But a page that was mapped above the break, by
  the program or by another one, is replaced when the heap grows over it.  When the kernel takes
  back what it mapped, the page is not put back.

  `GivenUp` says what is true in both cases.  That it means restored rests on counting: when
  nothing was mapped in the region, every frame in use is anchored, and so its uses are the same
  before and after.
-/
import Exokernel.Proofs.Mappings

namespace Exokernel

/-! ## Uses, read off the maps -/

section Lists

variable {α β : Type}

theorem map_eq_map_of_getElem {l l' : List α} (g : α → β) (hlength : l'.length = l.length)
    (h : ∀ (i : Nat) (hi' : i < l'.length) (hi : i < l.length), g l'[i] = g l[i]) :
    l'.map g = l.map g := by
  refine List.ext_getElem (by simpa using hlength) fun i hi' hi => ?_
  rw [List.getElem_map, List.getElem_map]
  exact h i _ _

end Lists

/-- The entries of a table that map the frame are counted along their positions. -/
theorem PageTable.mappingsOf_eq (o : Option PageTable) (f : Frame) :
    (o.map fun t => t.mappingsOf f).getD 0 = (List.finRange tableSize).countP fun j =>
      (o.bind fun t => t.entries.get j).map PageEntry.frame == some f := by
  cases o with
  | none => simp
  | some t =>
    have hlist : t.entries.toList = (List.finRange tableSize).map t.entries.get := by
      refine List.ext_getElem (by simp) fun i hi _ => ?_
      rw [Vector.getElem_toList, List.getElem_map, List.getElem_finRange]
      rfl
    rw [Option.map_some, Option.getD_some, mappingsOf, hlist, List.countP_map]
    rfl

/-- Directories with the same tables in the frame and the same entries use it as often. -/
theorem Directory.uses_congr {d d' : Directory} {f : Frame}
    (htable : ∀ b, (d'.table? b).map PageTable.frame = some f ↔
      (d.table? b).map PageTable.frame = some f)
    (hfind : ∀ b, d'.find? b = d.find? b) :
    d'.tablesIn f = d.tablesIn f ∧ d'.mappingsOf f = d.mappingsOf f := by
  have hlength : d'.tables.toList.length = d.tables.toList.length := by simp
  constructor
  · have hmap := map_eq_map_of_getElem (fun t : Option PageTable => t.map PageTable.frame == some f)
      hlength fun i hi' hi => by
        rw [Vector.length_toList] at hi
        have hi := htable (.ofIndices ⟨i, hi⟩ 0)
        rw [table?_ofIndices, table?_ofIndices] at hi
        rw [Vector.getElem_toList, Vector.getElem_toList, Bool.eq_iff_iff, beq_iff_eq, beq_iff_eq]
        exact hi
    unfold tablesIn
    have hcount := congrArg (List.countP id) hmap
    rwa [List.countP_map, List.countP_map] at hcount
  · unfold mappingsOf
    congr 1
    refine map_eq_map_of_getElem _ hlength fun i hi' hi => ?_
    rw [Vector.length_toList] at hi
    rw [PageTable.mappingsOf_eq, PageTable.mappingsOf_eq]
    refine List.countP_congr fun j _ => ?_
    have hj := hfind (.ofIndices ⟨i, hi⟩ j)
    simp only [find?, table?_ofIndices, PageTable.find?_ofIndices] at hj
    rw [Vector.getElem_toList, Vector.getElem_toList]
    exact (congrArg (fun e => (e.map PageEntry.frame == some f) = true) hj).to_iff

/-- The same of directories that may be missing. -/
theorem Directory.uses_congr_option {o o' : Option Directory} {f : Frame}
    (hframe : o'.map Directory.frame = o.map Directory.frame)
    (htable : ∀ b, (o'.bind fun d => (d.table? b).map PageTable.frame) = some f ↔
      (o.bind fun d => (d.table? b).map PageTable.frame) = some f)
    (hfind : ∀ b, (o'.bind fun d => d.find? b) = o.bind fun d => d.find? b) :
    (o'.map fun d => d.tablesIn f).getD 0 = (o.map fun d => d.tablesIn f).getD 0 ∧
      (o'.map fun d => d.mappingsOf f).getD 0 = (o.map fun d => d.mappingsOf f).getD 0 := by
  cases o with
  | none =>
    rw [Option.map_eq_none_iff.1 hframe]
    exact ⟨rfl, rfl⟩
  | some d =>
    obtain ⟨d', rfl, -⟩ := Option.map_eq_some_iff.1 hframe
    exact uses_congr htable hfind

namespace Memory

variable {m m' : Memory} {pins : List Frame} {s : SpaceId} {va b : VirtAddr} {f : Frame}
  {perm : Perm}

/-- **The uses of a frame** depend on the three maps alone. -/
theorem uses_congr (hsize : m'.spaces.size = m.spaces.size) (hlt : m.spaces.size < 0x100000000)
    (hroot : ∀ r, m'.root? r = m.root? r)
    (htable : ∀ r b, m'.table? r b = some f ↔ m.table? r b = some f)
    (hfind : ∀ r b, m'.find? r b = m.find? r b) : m'.uses f = m.uses f := by
  have hlt' := hlt
  rw [← hsize] at hlt'
  -- what is counted of a space is read off the maps
  have hspace : ∀ {α : Type} (g : Option Directory → α),
      (∀ s, g (m'.directory? s) = g (m.directory? s)) →
        m'.spaces.toList.map g = m.spaces.toList.map g := by
    intro α g hg
    refine map_eq_map_of_getElem g hsize fun i hi' hi => ?_
    have hgi := hg ⟨UInt32.ofNat i⟩
    rwa [directory?_ofNat hlt' hi', directory?_ofNat hlt hi] at hgi
  have hcounts := fun s => Directory.uses_congr_option (hroot s) (htable s) (hfind s)
  have hdirectories := congrArg (List.countP fun o => o == some f) (hspace _ hroot)
  rw [List.countP_map, List.countP_map] at hdirectories
  unfold uses tablesIn mappingsOf
  rw [hspace _ fun s => (hcounts s).1, hspace _ fun s => (hcounts s).2]
  congr 2

/-! ## Pages that are taken back -/

/-- Unmapping pages maps nothing. -/
theorem find?_removePages_of_none (hb : m.Balanced pins []) (h : m.find? s b = none) :
    ∀ (n : Nat) (va : VirtAddr), (removePages s n va m).find? s b = none := by
  intro n
  induction n generalizing m with
  | zero => exact fun _ => h
  | succ n ih =>
    intro va
    refine ih (remove_spec hb s va).1 ?_ _
    rw [(remove_sets hb s va).entry]
    split
    · rfl
    · exact h

/-- **The pages that are unmapped** are those of the run. -/
theorem find?_removePages (hb : m.Balanced pins []) :
    ∀ (n : Nat) (va : VirtAddr), va.isAligned = true → va.toNat + n * pageSize ≤ userTop →
      VirtAddr.Among va.toNat (va.toNat + n * pageSize) b →
        (removePages s n va m).find? s b = none := by
  intro n
  induction n generalizing m with
  | zero =>
    rintro va - - ⟨a, hge, hlt, -⟩
    omega
  | succ n ih =>
    intro va haligned htop hin
    have hb' := (remove_spec hb s va).1
    rcases among_cases haligned htop hin with hfirst | hrest
    · -- the first page is unmapped first, and stays so
      refine find?_removePages_of_none hb' ?_ n _
      exact (remove_sets hb s va).entry_self hfirst
    · exact ih hb' _ (isAligned_next haligned htop) (toNat_next_le htop) hrest

/-- Pages are only mapped where one starts. -/
theorem isAligned_of_mapPages (hb : m.Balanced pins []) (hsize : m.spaces.size < 0x100000000)
    {n : Nat} (hn : 0 < n) (h : mapPages s perm n va m = (m', none)) : va.isAligned = true := by
  obtain ⟨n, rfl⟩ := Nat.exists_eq_add_one.2 hn
  unfold mapPages at h
  split at h
  · cases (Prod.mk.inj h).2
  · rename_i m₁ heq
    obtain ⟨f, hfresh⟩ := mapFresh_sets hb hsize heq
    exact hfresh.aligned

/-- From `m` to `m'`, what a run of pages of the space `s` had mapped is gone, and nothing else. -/
structure GivenUp (m m' : Memory) (s : SpaceId) (start stop : Nat) : Prop where
  unmapped : ∀ b, VirtAddr.Among start stop b → m'.lookup s b = none
  others : ∀ r b, (r = s → ¬ VirtAddr.Among start stop b) → m'.lookup r b = m.lookup r b
  /-- What is still mapped holds what it held. -/
  page : ∀ r b f perm, m'.lookup r b = some (f, perm) → m'.pool.page? f = m.pool.page? f

/-- Nothing was lost if nothing was mapped there before. -/
theorem GivenUp.lookup_eq_iff {start stop : Nat} (h : m.GivenUp m' s start stop) :
    (∀ r b, m'.lookup r b = m.lookup r b) ↔
      ∀ va : VirtAddr, start ≤ va.toNat → va.toNat < stop → m.lookup s va = none := by
  constructor
  · intro hsame va hge hlt
    rw [← hsame]
    exact h.unmapped va ⟨va, hge, hlt, rfl, rfl⟩
  · intro hnone r b
    by_cases hout : r = s → ¬ VirtAddr.Among start stop b
    · exact h.others r b hout
    · push Not at hout
      obtain ⟨rfl, hin⟩ := hout
      obtain ⟨va, hge, hlt, hpage⟩ := hin
      rw [h.unmapped b ⟨va, hge, hlt, hpage⟩, lookup_eq_find?, ← find?_of_samePage hpage,
        ← lookup_eq_find?, hnone va hge hlt]

/-- Anchored frames are in use before and after, and hold the same. -/
theorem Redraws.page? {W : VirtAddr → Prop} (h : m.Redraws m' pins s W)
    (hb : m.Balanced pins []) (hb' : m'.Balanced pins []) (hsize : m.spaces.size < 0x100000000)
    (hf : m.Anchored pins s W f) : m'.pool.page? f = m.pool.page? f := by
  have hsize' := hsize
  rw [← h.size] at hsize'
  rw [FramePool.page?_of_isAllocated (hf.isAllocated hb hsize),
    FramePool.page?_of_isAllocated ((h.anchored hf).isAllocated hb' hsize'), h.stored f hf]

section Undone

variable {fault : VirtAddr} {e : MappingError} {n i : Nat}

/-- Whatever was there, nothing is mapped where pages were mapped and unmapped again. -/
theorem find?_undone (hb : m.Balanced pins []) (hsize : m.spaces.size < 0x100000000)
    (hperm : perm.Requestable) (htop : va.toNat + n * pageSize ≤ userTop)
    (h : mapPages s perm n va m = (m', some (fault, e)))
    (hi : i = (fault.toNat - va.toNat) / pageSize)
    (hin : VirtAddr.Among va.toNat fault.toNat b) : (removePages s i va m').find? s b = none := by
  obtain ⟨m₁, hfault, htop', hpages, -⟩ := mapPages_failed_at htop h hi
  rw [hfault] at hin
  have hsome : 0 < i := by
    obtain ⟨a, hge, hlt, -⟩ := hin
    simp only [pageSize] at hlt
    omega
  have hb' : m'.Balanced pins [] := by
    have hspec := (mapPages_spec (s := s) hperm.bits_lt n va hb).1
    rwa [h] at hspec
  exact find?_removePages hb' i va (isAligned_of_mapPages hb hsize hsome hpages) htop' hin

/-- **Pages are mapped up to one that cannot be, and unmapped again.** -/
theorem undone_givenUp (hb : m.Balanced pins []) (hsize : m.spaces.size < 0x100000000)
    (hperm : perm.Requestable) (htop : va.toNat + n * pageSize ≤ userTop)
    (h : mapPages s perm n va m = (m', some (fault, e)))
    (hi : i = (fault.toNat - va.toNat) / pageSize) :
    (removePages s i va m').Balanced pins [] ∧
      m.Redraws (removePages s i va m') pins s (VirtAddr.Among va.toNat fault.toNat) ∧
      m.GivenUp (removePages s i va m') s va.toNat fault.toNat := by
  obtain ⟨hb', hredraws⟩ := Refills.redraws (undone_refills hperm htop h hi) hb hsize
  have hunmapped : ∀ b, VirtAddr.Among va.toNat fault.toNat b →
      (removePages s i va m').lookup s b = none := by
    intro b hin
    rw [lookup_eq_find?, find?_undone hb hsize hperm htop h hi hin, Option.bind_none]
  have hothers : ∀ r b, (r = s → ¬ VirtAddr.Among va.toNat fault.toNat b) →
      (removePages s i va m').lookup r b = m.lookup r b := by
    intro r b hout
    rw [lookup_eq_find?, lookup_eq_find?, hredraws.entry r b hout]
  refine ⟨hb', hredraws, hunmapped, hothers, fun r b f p hl => ?_⟩
  -- a page that is still mapped is outside the run, and that is what anchors its frame
  have hout : r = s → ¬ VirtAddr.Among va.toNat fault.toNat b := by
    rintro rfl hin
    rw [hunmapped b hin] at hl
    cases hl
  rw [hothers r b hout] at hl
  obtain ⟨x, hx, hf⟩ := find?_of_lookup hl
  exact hredraws.page? hb hb' hsize (Or.inr (Or.inl ⟨r, b, x, hout, hx, hf⟩))

end Undone

end Memory

namespace Kernel

variable {pins : List Frame} {k k' : Kernel} {cur : Nat} {m : Memory} {s : SpaceId} {f : Frame}

/-! ## Frames -/

theorem Sound.refCount_of_free (h : k.Sound pins) (hf : k.memory.pool.isAllocated f = false) :
    k.memory.pool.refCount f = 0 := by
  by_cases hm : k.memory.pool.manages f = true
  · have hzero : ¬ 0 < k.memory.uses f + pins.count f := by
      rw [← h.isAllocated_iff f, hf]
      exact Bool.false_ne_true
    have hcount := h.counted hm
    refine UInt16.toNat_inj.1 ?_
    rw [hcount]
    exact Nat.eq_zero_of_not_pos hzero
  · unfold FramePool.refCount FramePool.index?
    rw [if_neg hm]

/-- The frame is in use as it was, is referred to as often, and holds the same. -/
structure KeepsFrame (k k' : Kernel) (f : Frame) : Prop where
  isAllocated : k'.memory.pool.isAllocated f = k.memory.pool.isAllocated f
  refCount : k'.memory.pool.refCount f = k.memory.pool.refCount f
  page? : k'.memory.pool.page? f = k.memory.pool.page? f

theorem keepsFrame_of_free (hk : k.Sound pins) (hk' : k'.Sound pins)
    (hf : k.memory.pool.isAllocated f = false) (hf' : k'.memory.pool.isAllocated f = false) :
    k.KeepsFrame k' f := by
  have hnothing : ∀ {p : FramePool}, p.isAllocated f = false → p.page? f = none := by
    intro p hp
    have hunused : p.usedIndex? f = none := by simpa [FramePool.isAllocated] using hp
    rw [FramePool.page?, hunused, Option.map_none]
  refine ⟨hf'.trans hf.symm, ?_, ?_⟩
  · rw [hk.refCount_of_free hf, hk'.refCount_of_free hf']
  · rw [hnothing hf, hnothing hf']

/-- What a call that takes everything back leaves: the break of the caller, all mappings, all that
  is mapped, and all frames but those of new tables. -/
structure Restored (k k' : Kernel) (cur : Nat) : Prop where
  heapBreak : (k'.env cur).heapBreak = (k.env cur).heapBreak
  lookup : ∀ s va, k'.memory.lookup s va = k.memory.lookup s va
  page : ∀ s va f perm, k.memory.lookup s va = some (f, perm) →
    k'.memory.pool.page? f = k.memory.pool.page? f
  frames : ∀ f, k.KeepsFrame k' f ∨
    k.memory.pool.isAllocated f = false ∧ ∃ s va, k'.memory.table? s va = some f

/-- Pages came and went where nothing was mapped: only tables are new. -/
theorem frames_of_redraws {W : VirtAddr → Prop} (hk : k.Sound pins) (hk' : k'.Sound pins)
    (hr : k.memory.Redraws k'.memory pins s W) (hbefore : ∀ b, W b → k.memory.find? s b = none)
    (hafter : ∀ b, W b → k'.memory.find? s b = none) (f : Frame) :
    k.KeepsFrame k' f ∨
      k.memory.pool.isAllocated f = false ∧ ∃ r va, k'.memory.table? r va = some f := by
  have hfind : ∀ r b, k'.memory.find? r b = k.memory.find? r b := by
    intro r b
    by_cases hW : r = s → ¬ W b
    · exact hr.entry r b hW
    · push Not at hW
      obtain ⟨rfl, hW⟩ := hW
      rw [hbefore b hW, hafter b hW]
  cases hf : k.memory.pool.isAllocated f with
  | true =>
    -- with nothing mapped in the region, whatever is in use is anchored
    have hanchored : k.memory.Anchored pins s W f := by
      rcases Memory.anchored_or_mapped hk.balanced hk.spaces_lt hf with h | ⟨b, x, hW, hx, -⟩
      · exact h
      · rw [hbefore b hW] at hx
        cases hx
    have hf' := (hr.anchored hanchored).isAllocated hk'.balanced hk'.spaces_lt
    have huses : k'.memory.uses f = k.memory.uses f := by
      refine Memory.uses_congr hr.size hk.spaces_lt hr.root ?_ hfind
      intro r b
      constructor
      · intro hb
        rcases hr.added r b f hb with hold | hnew
        · exact hold
        · exact absurd hanchored hnew
      · exact hr.table r b f
    refine Or.inl ⟨hf'.trans hf.symm, ?_, hr.page? hk.balanced hk'.balanced hk.spaces_lt hanchored⟩
    refine UInt16.toNat_inj.1 ?_
    rw [hk.counted (FramePool.manages_of_isAllocated hf),
      hk'.counted (FramePool.manages_of_isAllocated hf'), huses]
  | false =>
    cases hf' : k'.memory.pool.isAllocated f with
    | false => exact Or.inl (keepsFrame_of_free hk hk' hf hf')
    | true =>
      -- a frame that came into use is neither a directory nor mapped
      have hnot : ¬ (k.memory.Structural f ∨ (∃ r b x, k.memory.find? r b = some x ∧ x.frame = f) ∨
          f ∈ pins) := by
        rw [← hk.balanced.isAllocated_iff_maps hk.spaces_lt, hf]
        exact Bool.false_ne_true
      rcases (hk'.balanced.isAllocated_iff_maps hk'.spaces_lt).1 hf' with
        (⟨r, hroot⟩ | htable) | ⟨r, b, x, hx, hxf⟩ | hpin
      · rw [hr.root] at hroot
        exact absurd (Or.inl (Or.inl ⟨r, hroot⟩)) hnot
      · exact Or.inr ⟨rfl, htable⟩
      · rw [hfind] at hx
        exact absurd (Or.inr (Or.inl ⟨r, b, x, hx, hxf⟩)) hnot
      · exact absurd (Or.inr (Or.inr hpin)) hnot

/-! ## The law -/

/-- **A heap that could not grow** is as it was: the break, the other records and all mappings but
  those between the old break and the page that could not be mapped, where nothing is mapped
  afterwards.  So all is restored if and only if nothing was mapped there before. -/
theorem heap_restored_iff {increment : UInt32} {e : CallError} (h : Reachable pins k)
    (hc : k.caller = .ok cur) (hf : (k.growHeap increment).result = .error e) :
    ∃ s m fault, k.Holds cur s ∧
      (k.growHeap increment).kernel =
        { k with memory := m }.note (.heapFailed (k.env cur).id fault e) ∧
      k.memory.GivenUp m s (k.env cur).heapBreak.toNat fault.toNat ∧
      (k.Restored (k.growHeap increment).kernel cur ↔
        ∀ va : VirtAddr, (k.env cur).heapBreak.toNat ≤ va.toNat → va.toNat < fault.toNat →
          k.mapped cur va = none) := by
  have hk := h.sound
  have hk' : (k.growHeap increment).kernel.Sound pins :=
    moves_sound (perform_outcome hk (.growHeap increment)).moves hk
  have hl := (caller_eq_ok.1 hc).2
  obtain ⟨s, hs, -⟩ := hk.space cur hl
  rcases growHeap_of_caller hc hs increment with
    ⟨event, heq⟩ | ⟨n, m₀, htop, ⟨after, event, value, -, heq⟩ | ⟨fault, e', i, hm, hi, heq⟩⟩
  · rw [heq] at hf
    cases hf
  · rw [heq] at hf
    cases hf
  rw [heq] at hf hk' ⊢
  obtain rfl : e'.toCallError = e := Except.error.inj hf
  obtain ⟨hb', hredraws, hgiven⟩ :=
    Memory.undone_givenUp hk.balanced hk.spaces_lt requestable_userWrite htop hm hi
  refine ⟨s, _, fault, ⟨hl, hs⟩, rfl, hgiven, ?_⟩
  have hmapped : ∀ va, k.mapped cur va = k.memory.lookup s va := by
    intro va
    rw [mapped, hs, Option.bind_some]
  simp only [hmapped, ← hgiven.lookup_eq_iff]
  constructor
  · intro hrestored
    exact hrestored.lookup
  · intro hlookup
    refine ⟨rfl, hlookup, ?_, ?_⟩
    · intro r b f perm hl
      rw [← hlookup] at hl
      exact hgiven.page r b f perm hl
    · have hafter : ∀ b, VirtAddr.Among (k.env cur).heapBreak.toNat fault.toNat b →
          (Memory.removePages s i (k.env cur).heapBreak m₀).find? s b = none := fun b hin =>
        Memory.find?_undone hk.balanced hk.spaces_lt requestable_userWrite htop hm hi hin
      refine frames_of_redraws hk hk' hredraws (fun b hin => ?_) hafter
      have hl := hlookup s b
      rw [hgiven.unmapped b hin, h.legit.lookup_eq] at hl
      exact Option.map_eq_none_iff.1 hl.symm

/-- A program has mapped a page where its heap would grow. -/
def occupied : Kernel :=
  small.after [.create .none 0 0, .run ⟨4096⟩, takeFirstPage]

/-- The heap asks for sixteen pages, and thirteen frames are free. -/
theorem growHeap_occupied : (occupied.growHeap 0x10000).result = .error .noMemory := by
  decide +kernel

theorem heap_restored_iff_occupied :
    ∃ s m fault, occupied.Holds 0 s ∧
      (occupied.growHeap 0x10000).kernel =
        { occupied with memory := m }.note (.heapFailed (occupied.env 0).id fault .noMemory) ∧
      occupied.memory.GivenUp m s (occupied.env 0).heapBreak.toNat fault.toNat ∧
      (occupied.Restored (occupied.growHeap 0x10000).kernel 0 ↔
        ∀ va : VirtAddr, (occupied.env 0).heapBreak.toNat ≤ va.toNat → va.toNat < fault.toNat →
          occupied.mapped 0 va = none) :=
  heap_restored_iff (reachable_small _)
    (caller_eq_ok.2 ⟨by decide +kernel, by decide +kernel⟩) growHeap_occupied

/-- **A failed call costs the program its page.** -/
theorem occupied_not_restored : Reachable [] occupied ∧ occupied.caller = .ok 0 ∧
    (occupied.growHeap 0x10000).result = .error .noMemory ∧
    ¬ occupied.Restored (occupied.growHeap 0x10000).kernel 0 := by
  refine ⟨reachable_small _, caller_eq_ok.2 ⟨by decide +kernel, by decide +kernel⟩,
    growHeap_occupied, fun hrestored => ?_⟩
  have hbefore : (occupied.memory.lookup ⟨0⟩ ⟨0x10000000⟩).isSome = true := by decide +kernel
  have hafter : ((occupied.growHeap 0x10000).kernel.memory.lookup ⟨0⟩ ⟨0x10000000⟩).isSome =
      false := by decide +kernel
  rw [hrestored.lookup, hbefore] at hafter
  cases hafter

end Kernel

end Exokernel
