/-
  What a heap grows by.

  A heap that grows gets pages that are nobody else's.  When the call returns, each page from the
  old break to the new one is in a frame of its own, which holds zeros only and which nothing else
  refers to; all other pages of all spaces are what they were.  It makes no difference what was
  mapped there before, or who shared it.

  The loop takes a frame, perhaps another one for a table, and gives back the one that it replaces,
  so the next page may well come into the frame that the last one has freed, with all that a program
  has stored there.  What holds of a page once it is mapped is therefore said of memory as it is
  then: it is `Private`.  The rest of the loop happens in a region without that page, and whatever
  happens there keeps it private, because its frame is anchored.

  That the frame has one reference need not be followed through the loop.  If the page were
  unmapped now, nothing would keep the frame in use; so that one reference is all there is.
-/
import Exokernel.Proofs.Breaks
import Exokernel.Proofs.Heap

namespace Exokernel

theorem VirtAddr.SamePage.symm {a b : VirtAddr} (h : a.SamePage b) : b.SamePage a :=
  ⟨h.1.symm, h.2.symm⟩

theorem VirtAddr.SamePage.trans {a b c : VirtAddr} (h : a.SamePage b) (h' : b.SamePage c) :
    a.SamePage c := ⟨h.1.trans h'.1, h.2.trans h'.2⟩

/-! ## The pages of a run -/

/-- The page around the address starts from `start` on and below `stop`. -/
def VirtAddr.Within (start stop : Nat) (b : VirtAddr) : Prop :=
  start ≤ b.pageStart ∧ b.pageStart < stop

theorem VirtAddr.pageStart_eq {a : VirtAddr} (h : a.toNat < 0x100000000) :
    a.pageStart = a.toNat / pageSize * pageSize := by
  unfold pageStart dirIndex tableIndex
  simp only [Fin.ofNat, tableSpan, pageSize, tableSize]
  omega

theorem VirtAddr.Within.among {start stop : Nat} {b : VirtAddr} (h : b.Within start stop) :
    b.Among start stop := by
  have hstart := VirtAddr.toNat_ofIndices b.dirIndex b.tableIndex
  refine ⟨.ofIndices b.dirIndex b.tableIndex, ?_, ?_, VirtAddr.indices_ofIndices _ _⟩
  · exact hstart ▸ h.1
  · exact hstart ▸ h.2

theorem VirtAddr.Among.within {start stop : Nat} {b : VirtAddr} (h : b.Among start stop)
    (haligned : start % pageSize = 0) (hstop : stop ≤ 0x100000000) : b.Within start stop := by
  obtain ⟨a, hge, hlt, hpage⟩ := h
  rw [Within, ← hpage.pageStart_eq, pageStart_eq (Nat.lt_of_lt_of_le hlt hstop)]
  simp only [pageSize] at *
  omega

namespace Memory

variable {m m' : Memory} {pins : List Frame} {r s : SpaceId} {b c va : VirtAddr} {f : Frame}
  {perm : Perm} {x : PageEntry} {W : VirtAddr → Prop}

/-! ## Private pages -/

/-- The page around `b` is in a frame of its own, which holds zeros. -/
structure Private (m : Memory) (pins : List Frame) (s : SpaceId) (b : VirtAddr) (x : PageEntry) :
    Prop where
  entry : m.find? s b = some x
  /-- No other page is in the frame. -/
  alone : ∀ r c y, m.find? r c = some y → y.frame = x.frame → r = s ∧ b.SamePage c
  loose : ¬ m.Structural x.frame
  unpinned : x.frame ∉ pins
  zero : m.pool.stored? x.frame = some .zero

theorem Private.congr (h : m.Private pins s b x) (hc : b.SamePage c) : m.Private pins s c x := by
  refine ⟨(find?_of_samePage hc).symm.trans h.entry, fun r a y hy hf => ?_, h.loose, h.unpinned,
    h.zero⟩
  obtain ⟨hr, hpage⟩ := h.alone r a y hy hf
  exact ⟨hr, hc.symm.trans hpage⟩

theorem Private.isAllocated (h : m.Private pins s b x) (hb : m.Balanced pins [])
    (hsize : m.spaces.size < 0x100000000) : m.pool.isAllocated x.frame = true :=
  (hb.isAllocated_iff_maps hsize).2 (Or.inr (Or.inl ⟨s, b, x, h.entry, rfl⟩))

/-- Without the page, nothing refers to its frame. -/
theorem Private.not_mem_references_remove (h : m.Private pins s b x) (hb : m.Balanced pins [])
    (hsize : m.spaces.size < 0x100000000) : x.frame ∉ (m.remove s b).references := by
  have hsets := remove_sets hb s b
  rw [mem_references_iff (hsets.size ▸ hsize)]
  rintro (hstructural | ⟨r, c, y, hy, hf⟩)
  · exact h.loose ((hsets.structural (h.isAllocated hb hsize)).1 hstructural)
  · rw [hsets.entry] at hy
    split at hy
    · cases hy
    · rename_i hother
      exact hother (h.alone r c y hy hf)

/-- **The frame of a private page has one reference.** -/
theorem Private.refCount (h : m.Private pins s b x) (hb : m.Balanced pins [])
    (hsize : m.spaces.size < 0x100000000) : m.pool.refCount x.frame = 1 := by
  have hgone := h.not_mem_references_remove hb hsize
  obtain ⟨cell, hcell, -⟩ := FramePool.isAllocated_iff.1 (h.isAllocated hb hsize)
  obtain ⟨d, hd, hfind⟩ := Option.bind_eq_some_iff.1 h.entry
  obtain ⟨t, ht, hold⟩ := Option.bind_eq_some_iff.1 hfind
  obtain ⟨rest, hrefs, hset⟩ := references_setEntry hd ht
  -- what is referred to without the page is the rest
  have hafter : (m.remove s b).references.Perm rest := by
    rw [Memory.remove, hd]
    simp only [ht, hold]
    exact hset none
  have hrest : rest.count x.frame = 0 :=
    List.count_eq_zero.2 fun hmem => hgone (hafter.mem_iff.2 hmem)
  have hheld : m.references.count x.frame = 1 := by
    rw [hrefs.count_eq, hold, List.count_append, hrest]
    exact List.count_singleton_self
  refine UInt16.toNat_inj.1 ?_
  rw [FramePool.refCount_of_cell? hcell, (hb.accounts.counted _ cell hcell).1, List.count_append,
    hheld, List.count_eq_zero.2 h.unpinned]
  rfl

/-- A fresh page is private. -/
theorem MapsFresh.isPrivate (h : m.MapsFresh m' s va perm f) (hb : m.Balanced pins [])
    (hsize : m.spaces.size < 0x100000000) (hperm : perm.Requestable) :
    m'.Private pins s va (.page f.addr perm) := by
  have hframe := PageEntry.frame_page h.fits hperm.bits_lt
  have hunused : ∀ {P : Prop}, (P → m.pool.isAllocated f = true) → ¬ P := fun hP hp =>
    Bool.false_ne_true (h.free.symm.trans (hP hp))
  refine ⟨h.sets.entry_self (.refl va), fun r c y hy hf => ?_, ?_, ?_, ?_⟩ <;> rw [hframe] at *
  · by_contra hother
    rw [h.sets.entry, if_neg hother] at hy
    exact hunused (fun _ => (hb.isAllocated_iff_maps hsize).2
      (Or.inr (Or.inl ⟨r, c, y, hy, hf⟩))) trivial
  · exact h.loose
  · exact hunused fun hpin => (hb.isAllocated_iff_maps hsize).2 (Or.inr (Or.inr hpin))
  · exact h.zero

/-- **Pages that come and go elsewhere leave a private page private.** -/
theorem Redraws.isPrivate (h : m.Redraws m' pins s W) (hp : m.Private pins s b x)
    (hW : ¬ W b) : m'.Private pins s b x := by
  have hanchored : m.Anchored pins s W x.frame :=
    Or.inr (Or.inl ⟨s, b, x, fun _ => hW, hp.entry, rfl⟩)
  refine ⟨(h.entry s b fun _ => hW).trans hp.entry, fun r c y hy hf => ?_, ?_, hp.unpinned,
    (h.stored _ hanchored).trans hp.zero⟩
  · by_cases hout : r = s → ¬ W c
    · exact hp.alone r c y ((h.entry r c hout).symm.trans hy) hf
    · -- a page that is new in the region is in another frame
      push Not at hout
      obtain ⟨rfl, -⟩ := hout
      rcases h.brought c y hy with hold | hloose
      · exact hp.alone r c y hold hf
      · exact absurd (hf ▸ hanchored) hloose
  · rintro (⟨r, hr⟩ | ⟨r, c, hr⟩)
    · exact hp.loose (Or.inl ⟨r, (h.root r).symm.trans hr⟩)
    · rcases h.added r c _ hr with hold | hloose
      · exact hp.loose (Or.inr ⟨r, c, hold⟩)
      · exact hloose hanchored

/-- Pages further on are other pages. -/
theorem not_among_next {n : Nat} (haligned : va.isAligned = true)
    (htop : va.toNat + (n + 1) * pageSize ≤ userTop) :
    ¬ VirtAddr.Among (VirtAddr.ofNat (va.toNat + pageSize)).toNat
      ((VirtAddr.ofNat (va.toNat + pageSize)).toNat + n * pageSize) va := by
  rintro ⟨a, hge, hlt, hpage⟩
  rw [toNat_next htop] at hge hlt
  have hva : va.toNat % pageSize = 0 := beq_iff_eq.1 haligned
  have hsame := (VirtAddr.samePage_iff (a := a) (b := va)
    (by simp only [userTop, pageSize] at *; omega)
    (by simp only [userTop, pageSize] at *; omega)).1 hpage
  simp only [pageSize] at *
  omega

/-- **All pages of a run that was mapped are private.** -/
theorem mapPages_private (hperm : perm.Requestable) : ∀ {n : Nat} {va : VirtAddr} {m : Memory},
    m.Balanced pins [] → m.spaces.size < 0x100000000 → va.toNat + n * pageSize ≤ userTop →
      mapPages s perm n va m = (m', none) →
        VirtAddr.Among va.toNat (va.toNat + n * pageSize) b →
          ∃ f, PageEntry.Fits f ∧ m'.Private pins s b (.page f.addr perm)
  | 0, va, _, _, _, _, _, hin => by
    obtain ⟨a, hge, hlt, -⟩ := hin
    omega
  | n + 1, va, m, hb, hsize, htop, h, hin => by
    unfold mapPages at h
    split at h
    · cases h
    rename_i m₁ heq
    obtain ⟨f, hfresh⟩ := mapFresh_sets hb hsize heq
    have hb₁ := (mapFresh_spec hb s va hperm.bits_lt).1
    rw [heq] at hb₁
    have hsize₁ := hsize
    rw [← hfresh.sets.size] at hsize₁
    have htop' := toNat_next_le htop
    rcases among_cases hfresh.aligned htop hin with hfirst | hrest
    · -- the first page is mapped, and the others leave it
      have hrefills := mapPages_refills (s := s) hperm n _ m₁ htop' fun _ hc => hc
      obtain ⟨-, hredraws⟩ := Refills.redraws hrefills hb₁ hsize₁
      rw [h] at hredraws
      have hprivate := hredraws.isPrivate (hfresh.isPrivate hb hsize hperm)
        (not_among_next hfresh.aligned htop)
      exact ⟨f, hfresh.fits, hprivate.congr hfirst⟩
    · exact mapPages_private hperm hb₁ hsize₁ htop' h hrest

/-- A private page shows. -/
theorem Private.lookup (h : m.Private pins s b (.page f.addr perm)) (hf : PageEntry.Fits f)
    (hperm : perm.Requestable) : m.lookup s b = some (f, perm) := by
  rw [lookup_eq_find?, h.entry, Option.bind_some, if_pos (PageEntry.isValid_page hf hperm.bits_lt),
    PageEntry.frame_page hf hperm.bits_lt, PageEntry.perm_page_of_requestable hf hperm]

/-! ## Runs of fresh pages -/

/-- From `m` to `m'`, the space `s` gets fresh pages of its own from `start` up to `stop`. -/
structure Extends (m m' : Memory) (s : SpaceId) (perm : Perm) (start stop : Nat) : Prop where
  fresh : ∀ b : VirtAddr, b.Within start stop → ∃ f, m'.lookup s b = some (f, perm) ∧
    m'.pool.page? f = some .zero ∧ m'.pool.refCount f = 1
  distinct : ∀ (a b : VirtAddr) f p q, a.Within start stop → b.Within start stop →
    m'.lookup s a = some (f, p) → m'.lookup s b = some (f, q) → a.pageStart = b.pageStart
  /-- All other pages are mapped as they were. -/
  lookup : ∀ r (b : VirtAddr), (r = s → ¬ b.Within start stop) → m'.lookup r b = m.lookup r b
  /-- All other pages hold what they did. -/
  contents : ∀ r (b : VirtAddr) f p, (r = s → ¬ b.Within start stop) →
    m.lookup r b = some (f, p) → m'.pool.page? f = m.pool.page? f

/-- **A run of pages that was mapped is fresh**, and nothing else has changed. -/
theorem mapPages_extends {n : Nat} (hperm : perm.Requestable) (hb : m.Balanced pins [])
    (hsize : m.spaces.size < 0x100000000) (htop : va.toNat + n * pageSize ≤ userTop)
    (h : mapPages s perm n va m = (m', none)) :
    m.Extends m' s perm va.toNat (va.toNat + n * pageSize) := by
  have hrefills := mapPages_refills (s := s) hperm n va m htop fun _ hc => hc
  obtain ⟨hb', hredraws⟩ := Refills.redraws hrefills hb hsize
  rw [h] at hb' hredraws
  have hsize' := hsize
  rw [← hredraws.size] at hsize'
  have hprivate : ∀ b : VirtAddr, b.Within va.toNat (va.toNat + n * pageSize) →
      ∃ f, PageEntry.Fits f ∧ m'.Private pins s b (.page f.addr perm) := fun b hin =>
    mapPages_private hperm hb hsize htop h hin.among
  -- a run of no pages may start anywhere, and any other at a page
  have hrest : ∀ {r} {b : VirtAddr}, (r = s → ¬ b.Within va.toNat (va.toNat + n * pageSize)) →
      r = s → ¬ b.Among va.toNat (va.toNat + n * pageSize) := by
    intro r b hout hr hin
    have hpos : 0 < n := by
      obtain ⟨a, hge, hlt, -⟩ := hin
      refine Nat.pos_of_ne_zero fun hzero => ?_
      rw [hzero] at hlt
      omega
    have haligned := isAligned_of_mapPages hb hsize hpos h
    exact hout hr (hin.within (beq_iff_eq.1 haligned) (Nat.le_trans htop (by decide)))
  constructor
  · intro b hin
    obtain ⟨f, hfits, hp⟩ := hprivate b hin
    have hframe := PageEntry.frame_page hfits hperm.bits_lt
    have hused := hp.isAllocated hb' hsize'
    have hzero := hp.zero
    have hcount := hp.refCount hb' hsize'
    rw [hframe] at hused hzero hcount
    exact ⟨f, hp.lookup hfits hperm, (FramePool.page?_of_isAllocated hused).trans hzero, hcount⟩
  · intro a b f p q ha hb ha' hb'
    obtain ⟨g, -, hp⟩ := hprivate a ha
    obtain ⟨x, hx, hxf⟩ := find?_of_lookup ha'
    obtain ⟨y, hy, hyf⟩ := find?_of_lookup hb'
    obtain rfl := Option.some.inj (hx.symm.trans hp.entry)
    exact (hp.alone s b y hy (hyf.trans hxf.symm)).2.pageStart_eq
  · intro r b hout
    rw [lookup_eq_find?, lookup_eq_find?, hredraws.entry r b (hrest hout)]
  · intro r b f p hout hl
    obtain ⟨x, hx, hxf⟩ := find?_of_lookup hl
    exact hredraws.page? hb hb' hsize (Or.inr (Or.inl ⟨r, b, x, hrest hout, hx, hxf⟩))

end Memory

/-- Where the heap of the environment ends if it grows by the increment. -/
def Env.grownBreak (e : Env) (increment : UInt32) : Nat :=
  e.heapBreak.toNat + pageCeil increment.toNat

namespace Kernel

variable {pins : List Frame} {k : Kernel} {cur : Nat} {increment : UInt32} {value : Int32}

/-! ## The law -/

/-- What becomes of a caller that asks for a larger heap. -/
structure Grows (k : Kernel) (cur : Nat) (increment : UInt32) : Prop where
  /-- It is destroyed exactly when its heap would reach the ceiling. -/
  fatal : (k.growHeap increment).result = .ok .reschedule ↔
    userTop ≤ (k.env cur).grownBreak increment
  ended : userTop ≤ (k.env cur).grownBreak increment →
    (k.growHeap increment).kernel.envs.resolve (k.env cur).id = none
  /-- It does not go on then. -/
  silent : userTop ≤ (k.env cur).grownBreak increment → ∀ number args,
    Request.ofWords number args = .growHeap increment →
      ∀ next, (k.call number args).2 = some next → next.env ≠ (k.env cur).id
  /-- What it is answered is the new break. -/
  answered : ∀ value, (k.growHeap increment).result = .ok (.answer value) →
    value = (UInt32.ofNat ((k.env cur).grownBreak increment)).toInt32
  heapBreak : ∀ value, (k.growHeap increment).result = .ok (.answer value) →
    ((k.growHeap increment).kernel.env cur).heapBreak.toNat = (k.env cur).grownBreak increment
  /-- It gets the pages up to there. -/
  pages : ∀ value, (k.growHeap increment).result = .ok (.answer value) →
    ∃ s, (k.env cur).space = some s ∧
      k.memory.Extends (k.growHeap increment).kernel.memory s .userWrite
        (k.env cur).heapBreak.toNat ((k.env cur).grownBreak increment)

/-- A heap that would reach the ceiling ends its caller. -/
theorem growHeap_fatal (hc : k.caller = .ok cur)
    (htop : userTop ≤ (k.env cur).grownBreak increment) :
    ∃ event, k.growHeap increment = ⟨(k.note event).destroy cur, .ok .reschedule⟩ :=
  growHeap_of_none hc (heapEnd?_eq_none_iff.2 htop)

/-- What a caller has whose heap grew. -/
theorem growHeap_answered (hk : k.Sound pins) (hc : k.caller = .ok cur)
    (hok : (k.growHeap increment).result = .ok (.answer value)) :
    value = (UInt32.ofNat ((k.env cur).grownBreak increment)).toInt32 ∧
      ((k.growHeap increment).kernel.env cur).heapBreak.toNat =
        (k.env cur).grownBreak increment ∧
      ∃ s, (k.env cur).space = some s ∧
        k.memory.Extends (k.growHeap increment).kernel.memory s .userWrite
          (k.env cur).heapBreak.toNat ((k.env cur).grownBreak increment) := by
  have hl := (caller_eq_ok.1 hc).2
  obtain ⟨s, hs, -⟩ := hk.space cur hl
  cases hend : heapEnd? (k.env cur).heapBreak increment with
  | none =>
    obtain ⟨event, heq⟩ := growHeap_of_none hc hend
    rw [heq] at hok
    cases hok
  | some after =>
    obtain ⟨hsum, hbelow⟩ := heapEnd?_eq_some_iff.1 hend
    obtain ⟨n, m, hn, ⟨event, hmap, heq⟩ | ⟨fault, e, mapped, -, -, heq⟩⟩ :=
      growHeap_of_some hc hs hend
    · have hpages : (k.env cur).heapBreak.toNat + n * pageSize = after.toNat := by
        have hwhole := pageCeil_mod increment.toNat
        rw [hn, hsum]
        simp only [pageSize] at *
        omega
      rw [heq] at hok ⊢
      rw [Env.grownBreak, ← hsum]
      refine ⟨(Flow.answer.inj (Except.ok.inj hok)).symm, ?_, s, hs, ?_⟩
      · rw [env_note, env_updateEnv_self (k := { k with memory := m }) _ hl]
      · rw [← hpages]
        exact Memory.mapPages_extends requestable_userWrite hk.balanced hk.spaces_lt
          (by omega) hmap
    · rw [heq] at hok
      cases hok

/-- **A heap grows by fresh pages of its own**, or it was to grow too far and the caller is
  destroyed.  Whatever programs have stored in its frames before, the pages hold zeros. -/
theorem heap_grows (h : Reachable pins k) (hc : k.caller = .ok cur) (increment : UInt32) :
    k.Grows cur increment := by
  have hk := h.sound
  obtain ⟨hcur, hl⟩ := caller_eq_ok.1 hc
  have hended : userTop ≤ (k.env cur).grownBreak increment →
      (k.growHeap increment).kernel.envs.resolve (k.env cur).id = none := by
    intro htop
    obtain ⟨event, heq⟩ := growHeap_fatal hc htop
    rw [heq]
    exact resolve_destroy (k := k.note event) hl (hk.number cur hl)
  refine ⟨⟨fun hresult => ?_, fun htop => ?_⟩, hended, fun htop number args hreq next hnext => ?_,
    fun value hok => (growHeap_answered hk hc hok).1,
    fun value hok => (growHeap_answered hk hc hok).2.1,
    fun value hok => (growHeap_answered hk hc hok).2.2⟩
  · -- any other heap has another result
    refine Nat.le_of_not_lt fun hbelow => ?_
    obtain ⟨s, hs, -⟩ := hk.space cur hl
    obtain ⟨after, hend⟩ := Option.ne_none_iff_exists'.1 fun hnone =>
      absurd (heapEnd?_eq_none_iff.1 hnone) (Nat.not_le_of_lt hbelow)
    obtain ⟨n, m, -, ⟨event, -, heq⟩ | ⟨fault, e, mapped, -, -, heq⟩⟩ :=
      growHeap_of_some hc hs hend <;> rw [heq] at hresult <;> cases hresult
  · obtain ⟨event, heq⟩ := growHeap_fatal hc htop
    rw [heq]
  · refine call_silent hk hcur ?_ hnext
    rw [hreq]
    exact hended htop

/-- A program has pages where its heap is to grow.  The first and the third are in one frame, which
  it has mapped elsewhere besides; the second is in a frame of its own.  It has written into both
  frames. -/
def overlapped : Kernel :=
  small.attended [.act (.create .none 0 0), .act (.run ⟨4096⟩), .act takeFirstPage,
    .act (.call 12 #v[0, 0x10000000, 0, 0x10002000, 7]),
    .act (.call 12 #v[0, 0x10000000, 0, 0x800000, 7]),
    .act (.call 11 #v[0, 0x10001000, 7, 0, 0]),
    .store ⟨4096⟩ ⟨0x10000000⟩ #[1, 2, 3], .store ⟨4096⟩ ⟨0x10001FFF⟩ #[4, 5]]

theorem heap_grows_overlapped :
    overlapped.caller = .ok 0 ∧ (overlapped.growHeap 0x2001).result = .ok (.answer 0x10003000) ∧
      overlapped.Grows 0 0x2001 := by
  have hc : overlapped.caller = .ok 0 := caller_eq_ok.2 ⟨by decide +kernel, by decide +kernel⟩
  exact ⟨hc, by decide +kernel, heap_grows ((Reachable.booted booted_small).attended _) hc 0x2001⟩

/-- The frame that the caller had there stays where it is mapped besides.  The other one is given
  back on the way, with what was written into it, and the next page comes into it. -/
example :
    overlapped.mapped 0 ⟨0x10000000⟩ = some (⟨⟨0x401000⟩⟩, .userWrite) ∧
    (overlapped.growHeap 0x2001).kernel.mapped 0 ⟨0x800000⟩ =
      some (⟨⟨0x401000⟩⟩, .userWrite) ∧
    overlapped.mapped 0 ⟨0x10001000⟩ = some (⟨⟨0x404000⟩⟩, .userWrite) ∧
    (overlapped.growHeap 0x2001).kernel.mapped 0 ⟨0x10002000⟩ =
      some (⟨⟨0x404000⟩⟩, .userWrite) := by
  decide +kernel

end Kernel

end Exokernel
