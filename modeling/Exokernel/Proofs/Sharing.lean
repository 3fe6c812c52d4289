/-
  Pages that are shared.

  To map a page is not to copy it.  When a call has mapped a page in a second place, both places
  lead to one frame, and whatever happens from then on, as long as they do, bytes that are stored
  through the one are read through the other.  Nothing needs to be said of what happens in
  between, because what a copy sees is the frame behind the address: two mappings of one frame are
  the same page in every state in which the books are balanced.

  The count of the frame tells in how many places it is.  It goes up, unless the page was mapped
  where it is mapped now.  That case is the delicate one, since the last reference may be the one
  that is replaced; the new one is taken first, so the frame is never free in between, and in the
  end its count is what it was.
-/
import Exokernel.Proofs.Counts
import Exokernel.Proofs.Stores

namespace Exokernel

/-- The page at the start of which `a` is, `off` bytes further on. -/
theorem VirtAddr.offset_in_page {a : VirtAddr} {off : Nat} (ha : a.isUserPage = true)
    (hoff : off < pageSize) :
    (ofNat (a.toNat + off)).offset = off ∧ a.SamePage (ofNat (a.toNat + off)) := by
  rw [isUserPage, Bool.and_eq_true, isUser, isAligned, decide_eq_true_eq, beq_iff_eq] at ha
  obtain ⟨hbelow, haligned⟩ := ha
  have hlow : userTop < 0xF0000000 := by decide
  have hword : (ofNat (a.toNat + off)).toNat = a.toNat + off := by
    apply toNat_ofNat
    simp only [pageSize] at hoff
    omega
  constructor
  · unfold offset
    rw [hword]
    simp only [pageSize] at *
    omega
  · simp only [pageSize] at *
    rw [samePage_iff (by omega) (by omega), hword]
    simp only [pageSize]
    omega

namespace Memory

variable {m m' : Memory} {pins : List Frame} {r s t : SpaceId} {a b c va : VirtAddr}
  {f g : Frame} {perm p q : Perm} {data : Array UInt8} {off len : Nat}

/-! ## Two mappings of one frame -/

/-- What is stored through `r` in the page at `a` is read through `s` in the page at `b`, and in
  no page outside the frame `f`. -/
structure Reflects (m : Memory) (f : Frame) (r : SpaceId) (a : VirtAddr) (s : SpaceId)
    (b : VirtAddr) : Prop where
  accepts : ∀ (off : Nat) (data : Array UInt8), off + data.size ≤ pageSize →
    (m.writeBytes r (.ofNat (a.toNat + off)) data).2 = none
  seen : ∀ (off : Nat) (data : Array UInt8), off + data.size ≤ pageSize →
    ((m.writeBytes r (.ofNat (a.toNat + off)) data).1.readBytes s (.ofNat (b.toNat + off))
      data.size).complete = .ok data
  elsewhere : ∀ (off : Nat) (data : Array UInt8), off + data.size ≤ pageSize →
    ∀ t c g p len, m.lookup t c = some (g, p) → g ≠ f → c.offset + len ≤ pageSize →
      (m.writeBytes r (.ofNat (a.toNat + off)) data).1.readBytes t c len = m.readBytes t c len

/-- **Two mappings of one frame are one page.** -/
theorem Balanced.reflects (h : m.Balanced pins []) (ha : a.isUserPage = true)
    (hb : b.isUserPage = true) (hr : m.lookup r a = some (f, p))
    (hs : m.lookup s b = some (f, q)) : m.Reflects f r a s b := by
  -- a store with data is one at the offset, since the page is not left
  have hstores : ∀ (off : Nat) (data : Array UInt8), 0 < data.size → off + data.size ≤ pageSize →
      (m.writeBytes r (.ofNat (a.toNat + off)) data).2 = none ∧
        m.Stores (m.writeBytes r (.ofNat (a.toNat + off)) data).1 f off data := by
    intro off data hpos hfits
    have hinside : off < pageSize := by omega
    obtain ⟨hoff, hpage⟩ := VirtAddr.offset_in_page ha hinside
    have hlookup := (lookup_of_samePage hpage).symm.trans hr
    have hstored := writeBytes_of_lookup h hlookup hpos (hoff.symm ▸ hfits)
    rw [hoff] at hstored
    exact hstored
  constructor
  · intro off data hfits
    rcases Nat.eq_zero_or_pos data.size with hzero | hpos
    · obtain rfl := Array.eq_empty_of_size_eq_zero hzero
      rw [writeBytes_empty]
    · exact (hstores off data hpos hfits).1
  · intro off data hfits
    rcases Nat.eq_zero_or_pos data.size with hzero | hpos
    · obtain rfl := Array.eq_empty_of_size_eq_zero hzero
      rw [Array.size_empty, readBytes_zero]
      rfl
    · have hinside : off < pageSize := by omega
      obtain ⟨hoff, hpage⟩ := VirtAddr.offset_in_page hb hinside
      have hlookup := (lookup_of_samePage hpage).symm.trans hs
      exact (hstores off data hpos hfits).2.readBytes_self h hlookup hoff hfits
  · intro off data hfits t c g p len hl hne hin
    rcases Nat.eq_zero_or_pos data.size with hzero | hpos
    · obtain rfl := Array.eq_empty_of_size_eq_zero hzero
      rw [writeBytes_empty]
    · exact (hstores off data hpos hfits).2.readBytes_of_ne h hl hne hin

/-! ## Mapping a page once more -/

/-- From `m` to `m'`, the page in the frame `f` is mapped at `va` in the space `s`. -/
structure Shares (m m' : Memory) (f : Frame) (s : SpaceId) (va : VirtAddr) (perm : Perm) :
    Prop where
  mapped : m'.lookup s va = some (f, perm)
  others : ∀ r b, (r = s → ¬ va.SamePage b) → m'.lookup r b = m.lookup r b
  /-- If it was there before, it has as many references as it had. -/
  again : ∀ p, m.lookup s va = some (f, p) → m'.pool.refCount f = m.pool.refCount f
  /-- Otherwise it has one more. -/
  gains : (∀ p, m.lookup s va ≠ some (f, p)) →
    (m'.pool.refCount f).toNat = (m.pool.refCount f).toNat + 1
  /-- Another frame that was there has one less. -/
  displaced : ∀ g p, m.lookup s va = some (g, p) → g ≠ f → m.Drops m' g

theorem shares_of_insert (h : m.Balanced pins []) (hl : m.Legit pins) (hperm : perm.Requestable)
    (hi : m.insert s f va perm = .ok m') : m.Shares m' f s va perm := by
  have hused := (insert_eq_ok hi).2.1
  have hfits := h.fits_of_manages (FramePool.manages_of_isAllocated hused)
  have hsets := insert_sets h hi
  have hb' := (insert_spec h (fun _ hg => absurd hg List.not_mem_nil) hperm.bits_lt hi).1
  have hcount := refCount_insert h hperm.bits_lt hi hused
  rw [List.count_singleton_self] at hcount
  constructor
  · rw [hsets.lookup, if_pos ⟨rfl, .refl va⟩, Option.bind_some,
      if_pos (PageEntry.isValid_page hfits hperm.bits_lt), PageEntry.frame_page hfits hperm.bits_lt,
      PageEntry.perm_page_of_requestable hfits hperm]
  · intro r b hother
    rw [hsets.lookup, if_neg fun hrb => hother hrb.1 hrb.2]
  · intro p hold
    rw [references_of_lookup hold, List.count_singleton_self] at hcount
    exact UInt16.toNat_inj.1 (by omega)
  · intro hnew
    have hnone : (PageEntry.references (m.find? s va)).count f = 0 := by
      cases hx : m.find? s va with
      | none => rfl
      | some x =>
        -- what is entered shows, so it is another frame
        have hne : x.frame ≠ f := by
          intro hxf
          refine hnew x.perm ?_
          rw [hl.lookup_eq, hx, Option.map_some, hxf]
        exact List.count_cons_of_ne hne
    omega
  · intro g p hold hne
    have hdropped := refCount_insert h hperm.bits_lt hi (h.isAllocated_of_lookup hold)
    rw [references_of_lookup hold, List.count_singleton_self,
      List.count_cons_of_ne fun hfg => hne hfg.symm, List.count_nil] at hdropped
    exact drops_of_count hb' hdropped

/-- Which space is in force makes no difference. -/
theorem Shares.of_same {m'' : Memory} (h : m.Shares m' f s va perm) (hs : m'.Same m'') :
    m.Shares m'' f s va perm where
  mapped := (hs.lookup s va).trans h.mapped
  others r b hother := (hs.lookup r b).trans (h.others r b hother)
  again p hold := by
    rw [hs.pool]
    exact h.again p hold
  gains hnew := by
    rw [hs.pool]
    exact h.gains hnew
  displaced g p hold hne := by
    obtain ⟨hcount, hfreed⟩ := h.displaced g p hold hne
    rw [← hs.pool] at hcount hfreed
    exact ⟨hcount, hfreed⟩

end Memory

namespace Kernel

variable {k k' : Kernel} {pins : List Frame} {source dest : EnvId} {sourceVa destVa : VirtAddr}
  {number word : UInt32} {args : Args} {src dst : Nat} {f : Frame}

/-! ## The law -/

/-- From `k` to `k'`, the page that the environment in `src` has at `sourceVa` is shared with the
  one in `dst` at `destVa`. -/
structure Sharing (k k' : Kernel) (src : Nat) (sourceVa : VirtAddr) (dst : Nat)
    (destVa : VirtAddr) (word : UInt32) (f : Frame) : Prop where
  source : ∃ p, k.mapped src sourceVa = some (f, p)
  /-- All environments stay in their spaces. -/
  spaces : ∀ e, (k'.env e).space = (k.env e).space
  shares : ∃ s, (k.env dst).space = some s ∧ k.memory.Shares k'.memory f s destVa ⟨word⟩
  /-- Whatever happens from then on, two pages in that frame are one page. -/
  later : ∀ (future : List Operation) (r s : SpaceId) (p q : Perm),
    (k'.afterAll future).memory.lookup r sourceVa = some (f, p) →
    (k'.afterAll future).memory.lookup s destVa = some (f, q) →
      (k'.afterAll future).memory.Reflects f r sourceVa s destVa ∧
      (k'.afterAll future).memory.Reflects f s destVa r sourceVa

/-- What a call leaves that shared a page. -/
theorem Reachable.sharing (hk : Reachable pins k)
    (hreq : Request.ofWords number args = .pageMap source sourceVa dest destVa word)
    (hok : (k.perform (.ofWords number args)).result = .ok (.answer 0)) :
    ∃ src dst f, k.target source .owned = .ok src ∧ k.target dest .owned = .ok dst ∧
      k.Sharing (k.call number args).1 src sourceVa dst destVa word f := by
  have hmap : k.pageMap source sourceVa dest destVa word =
      .ok ((k.perform (.ofWords number args)).kernel, .answer 0) := by
    rw [hreq] at hok ⊢
    exact ofCheck_eq_ok hok
  obtain ⟨src, dst, perm, r, s, f, p, memory, event, hsrc, hdst, hsva, hdva, hperm, hr, hl, -, hs,
    hi, hkernel, -⟩ := pageMap_eq_ok hmap
  obtain ⟨rfl, -⟩ := Perm.request_eq_ok.1 hperm
  obtain ⟨cur, hc⟩ := caller_of_target hsrc
  have hturns := Turns.call (caller_eq_ok.1 hc).1 number args
  rw [hkernel] at hturns
  refine ⟨src, dst, f, hsrc, hdst, ⟨p, ?_⟩, fun e => (hturns.record e).space, ⟨s, hs, ?_⟩, ?_⟩
  · rw [mapped, hr, Option.bind_some, hl]
  · have hshares := Memory.shares_of_insert hk.sound.balanced hk.legit
      (Perm.requestable_of_request hperm) hi
    exact hshares.of_same hturns.same
  · intro future r' s' p' q' hr' hs'
    have hb := ((hk.act (.call number args)).afterAll future).sound.balanced
    exact ⟨hb.reflects hsva hdva hr' hs', hb.reflects hdva hsva hs' hr'⟩

/-- **A page that a call maps is shared and not copied**, whatever happened before and whatever
  happens then. -/
theorem pageMap_shares (hk : k.Booted pins) (past : List Operation)
    (hreq : Request.ofWords number args = .pageMap source sourceVa dest destVa word)
    (hok : ((k.afterAll past).perform (.ofWords number args)).result = .ok (.answer 0)) :
    ∃ src dst f, (k.afterAll past).target source .owned = .ok src ∧
      (k.afterAll past).target dest .owned = .ok dst ∧
      (k.afterAll past).Sharing ((k.afterAll past).call number args).1 src sourceVa dst destVa
        word f :=
  ((Reachable.booted hk).afterAll past).sharing hreq hok

/-- A parent has a page, and so has its child, at the same address. -/
def twoPages : List Operation :=
  [.act (.create .none 0 0), .act (.run ⟨4096⟩), .act (.call 6 (.replicate 5 0)),
    .act takeFirstPage, .store ⟨4096⟩ ⟨0x10000000⟩ #[1, 2, 3],
    .act (.call 11 #v[4097, 0x10000000, 7, 0, 0])]

/-- The arguments with which the parent maps its page in place of the child's. -/
def giveFirstPage : Args := #v[0, 0x10000000, 4097, 0x10000000, 7]

theorem pageMap_shares_twoPages :
    Request.ofWords 12 giveFirstPage =
      .pageMap ⟨0⟩ (.ofNat 0x10000000) ⟨4097⟩ (.ofNat 0x10000000) 7 ∧
    ∃ src dst f, (small.afterAll twoPages).target ⟨0⟩ .owned = .ok src ∧
      (small.afterAll twoPages).target ⟨4097⟩ .owned = .ok dst ∧
      (small.afterAll twoPages).Sharing ((small.afterAll twoPages).call 12 giveFirstPage).1 src
        (.ofNat 0x10000000) dst (.ofNat 0x10000000) 7 f :=
  ⟨rfl, pageMap_shares booted_small twoPages rfl (by decide +kernel)⟩

/-- The child has the page of its parent, which is in two places now. -/
example : ((small.afterAll twoPages).call 12 giveFirstPage).1.mapped 1 ⟨0x10000000⟩ =
      (small.afterAll twoPages).mapped 0 ⟨0x10000000⟩ ∧
    ((small.afterAll twoPages).call 12 giveFirstPage).1.memory.pool.refCount ⟨⟨0x402000⟩⟩ = 2 := by
  decide +kernel

end Kernel

end Exokernel
