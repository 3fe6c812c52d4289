/-
  Pages fresh from the pool.

  A program that asks for a page gets one that nobody else has: the frame was free, holds zeros
  only, and the mapping is all that refers to it.  It makes no difference what was mapped at the
  address before, who shared that, and what programs left in the frame when it was last in use.

  When a program gets one is a matter of rights, of the address, of the permission, and of room.
  Room is the hidden part.  The page needs a frame, and so does a table if there is none for the
  address; both are taken before anything is given back.  All other reasons for which a page
  cannot be mapped are excluded by what was checked before, or by the invariant.
-/
import Exokernel.Proofs.Counts
import Exokernel.Proofs.Stores

namespace Exokernel

theorem CallError.code_ne_zero (e : CallError) : e.code ≠ 0 := by
  cases e <;> decide

namespace Memory

variable {m m' : Memory} {pins : List Frame} {r s : SpaceId} {va b : VirtAddr} {f g : Frame}
  {perm p : Perm}

/-! ## When there is room -/

/-- How many frames a fresh page at `va` takes: one, and one more if there is no table for it. -/
def framesFor (m : Memory) (s : SpaceId) (va : VirtAddr) : Nat :=
  if m.table? s va = none then 2 else 1

/-- A page in a frame just taken cannot be mapped only because no frame is left for its table. -/
theorem insert_allocated_isOk_iff (h : m.Balanced pins []) (hd : (m.directory? s).isSome = true)
    (haligned : va.isAligned = true) {m₁ : Memory} (ha : m.allocPage = .ok (m₁, f)) :
    (∃ m', m₁.insert s f va perm = .ok m') ↔ (m₁.table? s va = none → m₁.pool.idle ≠ 0) := by
  obtain ⟨hb, htouches, -, hcell⟩ := allocPage_spec h ha s
  have hs := hb.accounts.sound
  have hfull : (∀ g, m₁.pool.manages g = true → m₁.pool.isAllocated g = true) ↔
      m₁.pool.idle = 0 := by
    rw [← FramePool.alloc?_eq_none_iff hs, FramePool.alloc?_eq_none_iff_idle hs]
  constructor
  · rintro ⟨m', hok⟩ htable hzero
    have hfails : ∃ err, m₁.insert s f va perm = .error err :=
      (insert_fails_iff hs).2 (.crowded htable (hfull.2 hzero))
    obtain ⟨err, herr⟩ := hfails
    exact nomatch herr.symm.trans hok
  · intro hroom
    cases hok : m₁.insert s f va perm with
    | ok m' => exact ⟨m', rfl⟩
    | error err =>
      exfalso
      cases (insert_fails_iff hs).1 ⟨err, hok⟩ with
      | misaligned odd => exact Bool.false_ne_true (odd.symm.trans haligned)
      | unused free =>
        have hused := FramePool.isAllocated_iff.2 ⟨_, hcell, rfl⟩
        exact Bool.false_ne_true (free.symm.trans hused)
      | saturated count =>
        rw [FramePool.refCount_of_cell? hcell] at count
        cases count
      | dead gone =>
        rw [← htouches.live, gone] at hd
        cases hd
      | crowded table full => exact hroom table (hfull.1 full)

/-- **A fresh page can be mapped exactly if enough frames are free.** -/
theorem mapFresh_isOk_iff (h : m.Balanced pins []) (hd : (m.directory? s).isSome = true)
    (haligned : va.isAligned = true) (perm : Perm) :
    (m.mapFresh s va perm).2 = none ↔ m.framesFor s va ≤ m.pool.idle := by
  have hs := h.accounts.sound
  unfold framesFor mapFresh
  cases hpool : m.pool.alloc? with
  | none =>
    have hzero := (FramePool.alloc?_eq_none_iff_idle hs).1 hpool
    have hnone : m.allocPage = .error .outOfMemory := by
      unfold allocPage
      rw [hpool]
    rw [hnone, hzero]
    refine iff_of_false (fun h => (nomatch h)) ?_
    split <;> decide
  | some taken =>
    obtain ⟨pool, f⟩ := taken
    have hidle := FramePool.idle_alloc hs hpool
    have ha : m.allocPage = .ok ({ m with pool }, f) := by
      unfold allocPage
      rw [hpool]
    have hinsert : (∃ m', ({ m with pool } : Memory).insert s f va perm = .ok m') ↔
        (m.table? s va = none → pool.idle ≠ 0) :=
      insert_allocated_isOk_iff h hd haligned ha
    have hroom : (m.table? s va = none → pool.idle ≠ 0) ↔
        (if m.table? s va = none then 2 else 1) ≤ m.pool.idle := by
      split
      · rename_i hmissing
        constructor
        · intro hpos
          have := hpos hmissing
          omega
        · intro hle _
          omega
      · rename_i hthere
        constructor
        · intro _
          omega
        · intro _ hmissing
          exact absurd hmissing hthere
    rw [← hroom, ← hinsert, ha]
    simp only
    cases hok : ({ m with pool } : Memory).insert s f va perm with
    | error err => simp
    | ok m' => simp

/-! ## What is mapped -/

/-- From `m` to `m'`, the space `s` gets a page at `va` that nobody else has. -/
structure Installs (m m' : Memory) (s : SpaceId) (va : VirtAddr) (perm : Perm) : Prop where
  /-- Its frame was free, and now it is used for this page and for nothing else. -/
  fresh : ∃ f, m.pool.manages f = true ∧ m.pool.isAllocated f = false ∧
    m'.lookup s va = some (f, perm) ∧ m'.pool.page? f = some .zero ∧ m'.pool.refCount f = 1 ∧
    ¬ m'.Structural f ∧ ∀ r b p, m'.lookup r b = some (f, p) → r = s ∧ va.SamePage b
  /-- What was mapped there has a reference less. -/
  displaced : ∀ g p, m.lookup s va = some (g, p) → m.Drops m' g
  others : ∀ r b, (r = s → ¬ va.SamePage b) → m'.lookup r b = m.lookup r b

theorem manages_of_extent {p q : FramePool} (h : q.extent = p.extent) (f : Frame) :
    q.manages f = p.manages f := by
  obtain ⟨hbase, hsize⟩ := Prod.mk.inj h
  unfold FramePool.manages FramePool.distance
  rw [hbase, hsize]

/-- A fresh page takes the place of what was mapped. -/
theorem drops_of_mapFresh (h : m.Balanced pins []) (hperm : perm.bits.toNat < 4096)
    (hf : m.mapFresh s va perm = (m', none)) (hl : m.lookup s va = some (g, p)) :
    m.Drops m' g := by
  have hb' : m'.Balanced pins [] := by
    have hspec := (mapFresh_spec h s va hperm).1
    rwa [hf] at hspec
  have hused := h.isAllocated_of_lookup hl
  unfold mapFresh at hf
  split at hf
  · cases hf
  rename_i m₁ f ha
  split at hf
  · cases hf
  rename_i m₂ hi
  obtain rfl : m₂ = m' := (Prod.mk.inj hf).1
  obtain ⟨hb, -, hnot, hcell⟩ := allocPage_spec h ha s
  -- taking a frame changes neither who refers to what nor what is mapped
  have hsame : m₁.references = m.references ∧ m₁.find? s va = m.find? s va ∧
      m₁.pool.isAllocated g = true ∧ f ≠ g := by
    unfold allocPage at ha
    split at ha
    · cases ha
    rename_i pool taken hpool
    obtain ⟨rfl, rfl⟩ := Prod.mk.inj (Except.ok.inj ha)
    obtain ⟨-, hw, hfree⟩ := FramePool.alloc?_spec h.accounts.sound hpool
    refine ⟨rfl, rfl, (isAllocated_of_rewrites hw rfl g).2 (Or.inr hused), ?_⟩
    rintro rfl
    exact Bool.false_ne_true ((FramePool.isAllocated_eq_false hfree).symm.trans hused)
  obtain ⟨hrefs, hfind, hused₁, hne⟩ := hsame
  have hcount := count_insert hb hperm hi hused₁
  rw [hrefs, hfind, references_of_lookup hl, List.count_singleton_self,
    List.count_cons_of_ne hne, List.count_nil] at hcount
  refine drops_of_count hb' ?_
  rw [hb'.refCount, h.refCount]
  omega

/-- **A fresh page is nobody else's.** -/
theorem mapFresh_installs (h : m.Balanced pins []) (hsize : m.spaces.size < 0x100000000)
    (hperm : perm.Requestable) (hf : m.mapFresh s va perm = (m', none)) :
    m.Installs m' s va perm := by
  have hspec := mapFresh_spec h s va hperm.bits_lt
  rw [hf] at hspec
  obtain ⟨hb', htouches⟩ := hspec
  obtain ⟨f, hfresh⟩ := mapFresh_sets h hsize hf
  have hsize' : m'.spaces.size < 0x100000000 := hfresh.sets.size ▸ hsize
  have hprivate := hfresh.isPrivate h hsize hperm
  have hframe := PageEntry.frame_page hfresh.fits hperm.bits_lt
  have hlookup := hprivate.lookup hfresh.fits hperm
  have hused := hprivate.isAllocated hb' hsize'
  have hcount := hprivate.refCount hb' hsize'
  have hloose := hprivate.loose
  rw [hframe] at hused hcount hloose
  constructor
  · refine ⟨f, ?_, hfresh.free, hlookup, ?_, hcount, hloose, ?_⟩
    · rw [← manages_of_extent htouches.extent]
      exact FramePool.manages_of_isAllocated hused
    · rw [FramePool.page?_of_isAllocated hused, hfresh.zero]
    · intro r b p hl
      obtain ⟨x, hx, hxf⟩ := find?_of_lookup hl
      exact hprivate.alone r b x hx (hxf.trans hframe.symm)
  · intro g p hl
    exact drops_of_mapFresh h hperm.bits_lt hf hl
  · intro r b hother
    rw [hfresh.sets.lookup, if_neg fun hrb => hother hrb.1 hrb.2]

end Memory

namespace Kernel

variable {k : Kernel} {pins : List Frame} {id : EnvId} {va : VirtAddr} {word number : UInt32}
  {args : Args} {cur slot : Nat} {s : SpaceId} {perm : Perm}

/-! ## When the call succeeds -/

/-- Whom the caller may name by `id`: itself, or a live child. -/
def Names (k : Kernel) (id : EnvId) (cur slot : Nat) : Prop :=
  id.isNone = true ∧ slot = cur ∨
    id.isNone = false ∧ k.envs.resolve id = some slot ∧
      (slot = cur ∨ (k.env slot).parent = (k.env cur).id)

theorem target_owned_iff : k.target id .owned = .ok slot ↔
    ∃ cur, k.caller = .ok cur ∧ k.Names id cur slot := by
  rw [target_eq_ok]
  refine exists_congr fun cur => and_congr_right fun _ => or_congr_right ?_
  refine and_congr_right fun _ => and_congr_right fun _ => ?_
  exact or_iff_right fun h => (nomatch h)

/-- The request for a fresh page is in order: everything but memory allows it. -/
structure InOrder (k : Kernel) (id : EnvId) (va : VirtAddr) (word : UInt32) (cur slot : Nat)
    (s : SpaceId) : Prop where
  caller : k.caller = .ok cur
  named : k.Names id cur slot
  space : (k.env slot).space = some s
  aligned : va.toNat % pageSize = 0
  below : va.toNat < userTop
  readable : word &&& 0x5 = 0x5
  allowed : 0xE07 &&& word = word

theorem pageTarget_eq_ok_iff : k.pageTarget id va word = .ok (slot, s, perm) ↔
    perm = ⟨word⟩ ∧ ∃ cur, k.InOrder id va word cur slot s := by
  have hpage : va.isUserPage = true ↔ va.toNat < userTop ∧ va.toNat % pageSize = 0 := by
    rw [VirtAddr.isUserPage, Bool.and_eq_true, VirtAddr.isUser, VirtAddr.isAligned,
      decide_eq_true_eq, beq_iff_eq]
  constructor
  · intro h
    obtain ⟨ht, hva, hp, hs⟩ := pageTarget_eq_ok h
    obtain ⟨cur, hc, hnames⟩ := target_owned_iff.1 ht
    obtain ⟨rfl, hread, hallow⟩ := Perm.request_eq_ok.1 hp
    obtain ⟨hbelow, haligned⟩ := hpage.1 hva
    exact ⟨rfl, cur, hc, hnames, hs, haligned, hbelow, hread, hallow⟩
  · rintro ⟨rfl, cur, h⟩
    have ht := target_owned_iff.2 ⟨cur, h.caller, h.named⟩
    have hva := hpage.2 ⟨h.below, h.aligned⟩
    have hp : Perm.request word = .ok ⟨word⟩ :=
      Perm.request_eq_ok.2 ⟨rfl, h.readable, h.allowed⟩
    unfold pageTarget
    rw [ht]
    simp only [Check.ok_bind, hva, hp, spaceOf_eq_ok.2 h.space]
    rfl

theorem InOrder.requestable (h : k.InOrder id va word cur slot s) :
    Perm.Requestable ⟨word⟩ := by
  have hp : Perm.request word = .ok ⟨word⟩ :=
    Perm.request_eq_ok.2 ⟨rfl, h.readable, h.allowed⟩
  exact Perm.requestable_of_request hp

theorem InOrder.isAligned (h : k.InOrder id va word cur slot s) : va.isAligned = true :=
  beq_iff_eq.2 h.aligned

/-- The call answers zero exactly if the request is in order and the page can be mapped. -/
theorem pageAlloc_answers_iff : (k.pageAlloc id va word).result = .ok (.answer 0) ↔
    ∃ cur slot s, k.InOrder id va word cur slot s ∧
      (k.memory.mapFresh s va ⟨word⟩).2 = none := by
  unfold pageAlloc
  cases ht : k.pageTarget id va word with
  | error e =>
    refine iff_of_false (fun h => (nomatch h)) ?_
    rintro ⟨cur, slot, s, horder, -⟩
    exact nomatch ht.symm.trans (pageTarget_eq_ok_iff.2 ⟨rfl, cur, horder⟩)
  | ok found =>
    obtain ⟨slot, s, perm⟩ := found
    obtain ⟨rfl, cur, horder⟩ := pageTarget_eq_ok_iff.1 ht
    have hmem : (∃ cur' slot' s', k.InOrder id va word cur' slot' s' ∧
        (k.memory.mapFresh s' va ⟨word⟩).2 = none) ↔ (k.memory.mapFresh s va ⟨word⟩).2 = none := by
      constructor
      · rintro ⟨cur', slot', s', horder', hmap⟩
        have hsame := ht.symm.trans (pageTarget_eq_ok_iff.2 ⟨rfl, cur', horder'⟩)
        obtain ⟨-, hrest⟩ := Prod.mk.inj (Except.ok.inj hsame)
        obtain ⟨rfl, -⟩ := Prod.mk.inj hrest
        exact hmap
      · intro hmap
        exact ⟨cur, slot, s, horder, hmap⟩
    rw [hmem]
    simp only
    cases hmap : k.memory.mapFresh s va ⟨word⟩ with
    | mk memory failed =>
      cases failed with
      | none => exact iff_of_true rfl rfl
      | some e => exact iff_of_false (fun h => nomatch h) fun h => nomatch h

/-- A fresh page is a matter of memory alone, and a call for one is always answered. -/
theorem pageAlloc_flow (k : Kernel) (id : EnvId) (va : VirtAddr) (word : UInt32) :
    (k.pageAlloc id va word).kernel.envs = k.envs ∧
      ∃ value, (k.pageAlloc id va word).flow = .answer value ∧
        (value = 0 ↔ (k.pageAlloc id va word).result = .ok (.answer 0)) := by
  rcases k.pageAlloc_cases id va word with
    ⟨e, heq⟩ | ⟨slot, s, perm, memory, -, ⟨e, -, heq⟩ | ⟨-, event, heq⟩⟩ <;> rw [heq]
  · refine ⟨rfl, e.code, rfl, ?_⟩
    exact iff_of_false e.code_ne_zero fun h => nomatch h
  · refine ⟨rfl, e.toCallError.code, rfl, ?_⟩
    exact iff_of_false e.toCallError.code_ne_zero fun h => nomatch h
  · exact ⟨rfl, 0, rfl, iff_of_true rfl rfl⟩

/-! ## The law -/

/-- What a call for a fresh page amounts to. -/
structure AllocatesFresh (k : Kernel) (id : EnvId) (va : VirtAddr) (word : UInt32) : Prop where
  /-- It succeeds if the request is in order and there is room, and not otherwise. -/
  answers : (k.pageAlloc id va word).result = .ok (.answer 0) ↔
    ∃ cur slot s, k.InOrder id va word cur slot s ∧ k.memory.framesFor s va ≤ k.memory.pool.idle
  /-- Then the target has a page of its own. -/
  installs : (k.pageAlloc id va word).result = .ok (.answer 0) →
    ∃ cur slot s, k.InOrder id va word cur slot s ∧
      k.memory.Installs (k.pageAlloc id va word).kernel.memory s va ⟨word⟩
  /-- All environments stay in their spaces. -/
  envs : (k.pageAlloc id va word).kernel.envs = k.envs
  /-- Whoever makes the call finds zero in its return register if and only if it succeeded, and
    memory is then what the call has left. -/
  returns : ∀ (number : UInt32) (args : Args) (cur : Nat),
    Request.ofWords number args = .pageAlloc id va word → k.caller = .ok cur →
      (Returns (k.call number args).2 (k.env cur).id 0 ↔
        (k.pageAlloc id va word).result = .ok (.answer 0)) ∧
      (k.pageAlloc id va word).kernel.memory.Same (k.call number args).1.memory

/-- What the caller finds. -/
theorem pageAlloc_returns (hk : k.Sound pins) (hc : k.caller = .ok cur)
    (hreq : Request.ofWords number args = .pageAlloc id va word) :
    Returns (k.call number args).2 (k.env cur).id 0 ↔
      (k.pageAlloc id va word).result = .ok (.answer 0) := by
  have hreply : k.perform (.ofWords number args) = k.pageAlloc id va word := by rw [hreq]; rfl
  obtain ⟨henvs, value, hflow, hzero⟩ := k.pageAlloc_flow id va word
  have henv : (k.pageAlloc id va word).kernel.env cur = k.env cur :=
    congrArg (fun envs => EnvTable.get envs cur) henvs
  rw [← hreply] at hflow
  have hlive : ((k.perform (.ofWords number args)).kernel.env cur).isLive = true := by
    rw [hreply, henv]
    exact (caller_eq_ok.1 hc).2
  have hreturns := (call_answers hk hc hlive hflow).returns rfl
  rw [hreply, henv] at hreturns
  rw [← hzero]
  constructor
  · rintro ⟨registers, hnext, hresult⟩
    obtain ⟨registers', hnext', hresult'⟩ := hreturns
    obtain rfl : registers = registers' := by simpa [hnext] using hnext'
    exact hresult'.symm.trans hresult
  · rintro rfl
    exact hreturns

theorem Sound.allocatesFresh (hk : k.Sound pins) (id : EnvId) (va : VirtAddr) (word : UInt32) :
    k.AllocatesFresh id va word := by
  have hlive : ∀ {cur slot s}, k.InOrder id va word cur slot s →
      (k.memory.directory? s).isSome = true := by
    intro cur slot s h
    have hl := isLive_of_target (target_owned_iff.2 ⟨cur, h.caller, h.named⟩)
    obtain ⟨s', hs', hd⟩ := hk.space slot hl
    obtain rfl : s = s' := Option.some.inj (h.space.symm.trans hs')
    exact hd
  have hanswers : (k.pageAlloc id va word).result = .ok (.answer 0) ↔
      ∃ cur slot s, k.InOrder id va word cur slot s ∧
        k.memory.framesFor s va ≤ k.memory.pool.idle := by
    rw [pageAlloc_answers_iff]
    refine exists_congr fun cur => exists_congr fun slot => exists_congr fun s => ?_
    refine and_congr_right fun h => ?_
    exact Memory.mapFresh_isOk_iff hk.balanced (hlive h) h.isAligned ⟨word⟩
  refine ⟨hanswers, fun hok => ?_, (k.pageAlloc_flow id va word).1,
    fun number args cur hreq hc => ⟨pageAlloc_returns hk hc hreq, ?_⟩⟩
  · obtain ⟨cur, slot, s, horder, hmap⟩ := pageAlloc_answers_iff.1 hok
    refine ⟨cur, slot, s, horder, ?_⟩
    have hpages : k.memory.mapFresh s va ⟨word⟩ =
        ((k.pageAlloc id va word).kernel.memory, none) := by
      have ht := pageTarget_eq_ok_iff.2 ⟨rfl, cur, horder⟩
      unfold pageAlloc
      rw [ht]
      simp only
      cases hfound : k.memory.mapFresh s va ⟨word⟩ with
      | mk memory failed =>
        rw [hfound] at hmap
        obtain rfl : failed = none := hmap
        rfl
    exact Memory.mapFresh_installs hk.balanced hk.spaces_lt horder.requestable hpages
  · have hturns := Turns.call (caller_eq_ok.1 hc).1 number args
    rw [hreq] at hturns
    exact hturns.same

/-- **A page that a call allocates is fresh**, whatever happened before. -/
theorem pageAlloc_fresh (hk : k.Booted pins) (past : List Operation) (id : EnvId) (va : VirtAddr)
    (word : UInt32) : (k.afterAll past).AllocatesFresh id va word :=
  ((Reachable.booted hk).afterAll past).sound.allocatesFresh id va word

/-- A program writes into a page and unmaps it. -/
def littered : List Operation :=
  [.act (.create .none 0 0), .act (.run ⟨4096⟩), .act takeFirstPage,
    .store ⟨4096⟩ ⟨0x10000000⟩ #[1, 2, 3], .act (.call 13 #v[0, 0x10000000, 0, 0, 0])]

theorem pageAlloc_fresh_littered :
    (small.afterAll littered).AllocatesFresh ⟨0⟩ ⟨0x800000⟩ 7 ∧
      ((small.afterAll littered).pageAlloc ⟨0⟩ ⟨0x800000⟩ 7).result = .ok (.answer 0) :=
  ⟨pageAlloc_fresh booted_small littered ⟨0⟩ ⟨0x800000⟩ 7, by decide +kernel⟩

/-- The page comes into the frame that was written into. -/
example : (small.afterAll (littered.take 4)).mapped 0 ⟨0x10000000⟩ =
      some (⟨⟨0x401000⟩⟩, .userWrite) ∧
    ((small.afterAll littered).pageAlloc ⟨0⟩ ⟨0x800000⟩ 7).kernel.mapped 0 ⟨0x800000⟩ =
      some (⟨⟨0x401000⟩⟩, .userWrite) := by
  decide +kernel

end Kernel

end Exokernel
