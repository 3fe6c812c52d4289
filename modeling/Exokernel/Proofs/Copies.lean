/-
  A copy is a copy of bytes.

  Reading and writing a range go page by page, with part of a page at both ends, and may stop
  midway.  Two facts about memory carry the comparison with a copy that moves one byte at a time:
  whatever is mapped is in use (`Backed`), and within a page the places of a range are neighbours.
  Each pass of a loop is then as many single bytes as it moves (`storeEach_chunk`), and the loop
  stops where the first byte without a place is, which is where a page starts.

  What a write leaves is read off the stores of single bytes, the last of which counts where several
  pages of the range map one frame (`byteIn?_storeEach`).  The books, and so `Backed`, hold whatever
  is done with memory (`Booked.step`).
-/
import Exokernel.Proofs.Bytes

namespace Exokernel.Memory

variable {m m' : Memory} {pins : List Frame} {s : SpaceId} {va cur : VirtAddr} {f : Frame}
  {i j k off len done : Nat} {data bytes : Array UInt8} {pool : FramePool}

/-! ## What is mapped is in use -/

/-- Behind every mapping there is a frame in use. -/
structure Backed (m : Memory) : Prop where
  sound : m.pool.Sound
  used : ∀ s va f perm, m.lookup s va = some (f, perm) → m.pool.isAllocated f = true

theorem Booked.backed (h : m.Booked pins) : m.Backed := by
  obtain ⟨fresh, hb⟩ := h.books
  refine ⟨hb.accounts.sound, fun s va f perm hl => ?_⟩
  obtain ⟨d, hd, hmem⟩ := frame_mem_of_lookup hl
  exact FramePool.isAllocated_iff.2
    (hb.accounts.cell_of_mem (List.mem_append_left pins (mem_references hd hmem)))

theorem Backed.used_of_place? (h : m.Backed) (hplace : m.place? s va i = some (f, off)) :
    m.pool.isAllocated f = true := by
  obtain ⟨a, perm, -, hl, -⟩ := place?_eq_some_iff.1 hplace
  exact h.used s a f perm hl

theorem Backed.write (h : m.Backed) (hw : m.pool.write? f off bytes = some pool) :
    ({ m with pool } : Memory).Backed := by
  obtain ⟨-, -, -, hs, -⟩ := FramePool.write?_spec h.sound hw
  refine ⟨hs, fun s va g perm hl => ?_⟩
  rw [(FramePool.bytesOnly_write hw).used]
  exact h.used s va g perm hl

/-- The page around an address, as the loops look for it. -/
theorem Backed.pageAt_cases (h : m.Backed) (ha : va.add? i = some cur) :
    (m.place? s va i = none ∧ m.pageAt s cur = .error .notMapped) ∨
    ∃ f page, m.place? s va i = some (f, cur.offset) ∧ m.pool.page? f = some page ∧
      m.pageAt s cur = .ok (f, page) := by
  cases hl : m.lookup s cur with
  | none =>
    refine .inl ⟨?_, by simp only [pageAt, hl]⟩
    unfold place?
    rw [ha, Option.bind_some, hl, Option.map_none]
  | some entry =>
    obtain ⟨f, perm⟩ := entry
    have hplace : m.place? s va i = some (f, cur.offset) :=
      place?_eq_some_iff.2 ⟨cur, perm, ha, hl, rfl⟩
    obtain ⟨c, hc, hu⟩ := FramePool.isAllocated_iff.1 (h.used_of_place? hplace)
    have hpage : m.pool.page? f = some c.page := by
      simp [FramePool.page?_eq, hc, hu, Option.filter]
    exact .inr ⟨f, c.page, hplace, hpage, pageAt_eq hl hpage⟩

/-- What a loop moves at once lies in one page. -/
theorem offset_add_chunk_le (cur : VirtAddr) (left : Nat) :
    cur.offset + chunk cur left ≤ pageSize := by
  have hoff := cur.offset_lt
  unfold chunk
  omega

/-! ## Single bytes -/

/-- From `m` to `m'` only bytes change. -/
structure BytesOnly (m m' : Memory) : Prop where
  spaces : m'.spaces = m.spaces
  active : m'.active = m.active
  pool : m.pool.BytesOnly m'.pool

theorem BytesOnly.trans {m'' : Memory} (h : m.BytesOnly m') (h' : m'.BytesOnly m'') :
    m.BytesOnly m'' :=
  ⟨h'.spaces.trans h.spaces, h'.active.trans h.active, h.pool.trans h'.pool⟩

theorem storeByte_of_place? (h : m.Backed) (hplace : m.place? s va i = some (f, off)) (b : UInt8) :
    ∃ pool, m.pool.write? f off #[b] = some pool ∧ m.storeByte s va i b = { m with pool } := by
  obtain ⟨pool, hw⟩ := FramePool.write?_isSome (h.used_of_place? hplace) off #[b]
  refine ⟨pool, hw, ?_⟩
  unfold storeByte
  simp only [hplace, Option.bind_some, hw]

theorem storeByte_of_place?_eq_none (hplace : m.place? s va i = none) (b : UInt8) :
    m.storeByte s va i b = m := by
  unfold storeByte
  simp only [hplace, Option.bind_none]

theorem storeByte_keeps (h : m.Backed) (s : SpaceId) (va : VirtAddr) (i : Nat) (b : UInt8) :
    (m.storeByte s va i b).Backed ∧ m.BytesOnly (m.storeByte s va i b) := by
  cases hplace : m.place? s va i with
  | none =>
    rw [storeByte_of_place?_eq_none hplace]
    exact ⟨h, rfl, rfl, .refl m.pool⟩
  | some place =>
    obtain ⟨pool, hw, heq⟩ := storeByte_of_place? h hplace b
    rw [heq]
    exact ⟨h.write hw, rfl, rfl, FramePool.bytesOnly_write hw⟩

theorem storeEach_keeps (h : m.Backed) (s : SpaceId) (va : VirtAddr) (data : Array UInt8) :
    ∀ n, (m.storeEach s va data n).Backed ∧ m.BytesOnly (m.storeEach s va data n)
  | 0 => ⟨h, rfl, rfl, .refl m.pool⟩
  | n + 1 => by
    obtain ⟨hbacked, honly⟩ := storeEach_keeps h s va data n
    obtain ⟨hbacked', honly'⟩ := storeByte_keeps hbacked s va n (data.getD n 0)
    exact ⟨hbacked', honly.trans honly'⟩

theorem place?_storeEach (h : m.Backed) (s : SpaceId) (va : VirtAddr) (data : Array UInt8)
    (n i : Nat) : (m.storeEach s va data n).place? s va i = m.place? s va i :=
  place?_of_spaces (storeEach_keeps h s va data n).2.spaces s va i

/-- **What is stored byte by byte**: a byte of the range shows at its place unless a later one has
  the same place, and nothing else changes. -/
theorem byteIn?_storeEach (h : m.Backed) (s : SpaceId) (va : VirtAddr) (data : Array UInt8)
    (n : Nat) (f : Frame) (off : Nat) :
    (∀ i, i < n → m.place? s va i = some (f, off) →
      (∀ j, i < j → j < n → m.place? s va j ≠ some (f, off)) →
        (m.storeEach s va data n).pool.byteIn? f off = some (data.getD i 0)) ∧
    ((∀ i, i < n → m.place? s va i ≠ some (f, off)) →
      (m.storeEach s va data n).pool.byteIn? f off = m.pool.byteIn? f off) := by
  induction n with
  | zero => exact ⟨fun i hi => absurd hi (Nat.not_lt_zero i), fun _ => rfl⟩
  | succ n ih =>
    obtain ⟨ihlast, ihothers⟩ := ih
    obtain ⟨hbacked, -⟩ := storeEach_keeps h s va data n
    have hplaces := place?_storeEach h s va data n n
    have hstep : (m.storeEach s va data (n + 1)).pool.byteIn? f off =
        if m.place? s va n = some (f, off) then some (data.getD n 0)
        else (m.storeEach s va data n).pool.byteIn? f off := by
      show ((m.storeEach s va data n).storeByte s va n _).pool.byteIn? f off = _
      cases hplace : m.place? s va n with
      | none => rw [storeByte_of_place?_eq_none (hplaces.trans hplace), if_neg nofun]
      | some place =>
        obtain ⟨g, o⟩ := place
        obtain ⟨pool, hw, heq⟩ := storeByte_of_place? hbacked (hplaces.trans hplace) (data.getD n 0)
        rw [heq]
        show pool.byteIn? f off = _
        rw [FramePool.byteIn?_write hbacked.sound hw (offset_lt_of_place? hplace)]
        simp only [Option.some.injEq, Prod.mk.injEq, eq_comm]
    rw [hstep]
    constructor
    · intro i hi hplace hlast
      by_cases hin : i = n
      · rw [← hin, if_pos hplace]
      · rw [if_neg (hlast n (by omega) (by omega))]
        exact ihlast i (by omega) hplace fun j hij hj => hlast j hij (by omega)
    · intro hnone
      rw [if_neg (hnone n (by omega))]
      exact ihothers fun i hi => hnone i (by omega)

/-! ## Writing -/

/-- **One pass of the loop** is as many single bytes as it moves. -/
theorem storeEach_chunk (h : m.Backed) (hm : m.storeEach s va data i = m')
    (hplace : m.place? s va i = some (f, off)) :
    ∀ k, off + k ≤ pageSize → i + k ≤ data.size →
      ∃ pool, m'.pool.write? f off (data.extract i (i + k)) = some pool ∧
        m.storeEach s va data (i + k) = { m' with pool } := by
  obtain ⟨hbacked, honly⟩ := storeEach_keeps h s va data i
  rw [hm] at hbacked honly
  have hused : m'.pool.isAllocated f = true := by
    rw [honly.pool.used]
    exact h.used_of_place? hplace
  intro k
  induction k with
  | zero =>
    intro _ _
    have hempty : data.extract i (i + 0) = #[] := by simp
    rw [hempty]
    exact ⟨m'.pool, FramePool.write?_empty hused off, hm⟩
  | succ k ih =>
    intro hfits hlen
    obtain ⟨pool, hw, heq⟩ := ih (by omega) (by omega)
    obtain ⟨hbacked', -⟩ := storeEach_keeps h s va data (i + k)
    have hnext : (m.storeEach s va data (i + k)).place? s va (i + k) = some (f, off + k) := by
      rw [place?_storeEach h]
      exact place?_add hplace (by omega)
    obtain ⟨pool', hw', heq'⟩ := storeByte_of_place? hbacked' hnext (data.getD (i + k) 0)
    have hsize : (data.extract i (i + k)).size = k := by
      rw [Array.size_extract]
      omega
    have hpiece : data.extract i (i + k) ++ #[data.getD (i + k) 0] =
        data.extract i (i + (k + 1)) := by
      rw [Array.getD_eq_getD_getElem?, Array.getElem?_eq_getElem (show i + k < data.size by omega),
        Option.getD_some, Array.append_singleton, Array.push_extract_getElem (by omega)]
      congr 1
      omega
    refine ⟨pool', ?_, ?_⟩
    · rw [heq] at hw'
      rw [← hpiece, ← FramePool.write?_append hw, hsize]
      exact hw'
    · show (m.storeEach s va data (i + k)).storeByte s va (i + k) (data.getD (i + k) 0) = _
      rw [heq', heq]

/-- **The loop that writes** is a series of stores of single bytes, up to the first that has no
  place. -/
theorem writeFrom_storeEach (h : m.Backed) (s : SpaceId) (va : VirtAddr) (data : Array UInt8)
    (done : Nat) (hdone : done ≤ data.size)
    (hbefore : ∀ i, i < done → (m.place? s va i).isSome = true) :
    (m.storeEach s va data done).writeFrom s va data done =
      (m.storeEach s va data (m.reach s va data.size),
        if m.reach s va data.size = data.size then none else some .notMapped) := by
  obtain ⟨hbacked, honly⟩ := storeEach_keeps h s va data done
  have hplaces := place?_storeEach h s va data done
  rw [writeFrom]
  by_cases hmore : done < data.size
  · rw [if_pos hmore]
    cases hcur : va.add? done with
    | none =>
      have hnone : m.place? s va done = none := by
        unfold place?
        rw [hcur, Option.bind_none]
      rw [reach_eq hdone hbefore fun _ => hnone, if_neg (Nat.ne_of_lt hmore)]
    | some cur =>
      rcases hbacked.pageAt_cases hcur with ⟨hnone, hat⟩ | ⟨f, page, hplace, -, hat⟩
      · rw [hplaces] at hnone
        simp only [hat]
        rw [reach_eq hdone hbefore fun _ => hnone, if_neg (Nat.ne_of_lt hmore)]
      · rw [hplaces] at hplace
        have hpos : 0 < chunk cur (data.size - done) := chunk_pos cur (by omega)
        have hle : chunk cur (data.size - done) ≤ data.size - done := chunk_le cur _
        have hfits := offset_add_chunk_le cur (data.size - done)
        have hin : done + chunk cur (data.size - done) ≤ data.size := by omega
        obtain ⟨pool, hw, heq⟩ := storeEach_chunk h rfl hplace _ hfits hin
        simp only [hat, hw]
        rw [← heq]
        refine writeFrom_storeEach h s va data _ (by omega) fun i hi => ?_
        rcases Nat.lt_or_ge i done with hlt | hge
        · exact hbefore i hlt
        · obtain ⟨k, rfl⟩ := Nat.exists_eq_add_of_le hge
          rw [place?_add hplace (by omega), Option.isSome_some]
  · have hall : m.reach s va data.size = data.size := by
      refine reach_eq (Nat.le_refl _) (fun i hi => hbefore i (by omega)) fun hlt => ?_
      exact absurd hlt (Nat.lt_irrefl _)
    have hend : done = data.size := by omega
    rw [if_neg hmore, hall, if_pos rfl, hend]
termination_by data.size - done

/-! ## Reading -/

theorem loadByte?_of_page? (hplace : m.place? s va i = some (f, off))
    {page : Page} (hpage : m.pool.page? f = some page) : m.loadByte? s va i = page[off]? := by
  have hused : m.pool.isAllocated f = true := by
    rw [FramePool.isAllocated, ← Option.isSome_map, ← FramePool.page?, hpage, Option.isSome_some]
  rw [FramePool.page?_of_isAllocated hused] at hpage
  unfold loadByte?
  rw [hplace, Option.bind_some, FramePool.byteIn?_eq, hpage, Option.bind_some]

/-- What a read of `len` bytes has to yield: the bytes of the range, up to the first that has no
  place. -/
structure Loads (m : Memory) (s : SpaceId) (va : VirtAddr) (len : Nat) (r : Reading) : Prop where
  size : r.bytes.size = m.reach s va len
  bytes : ∀ i, i < m.reach s va len → r.bytes[i]? = m.loadByte? s va i
  stopped : r.stopped = if m.reach s va len = len then none else some .notMapped

theorem getElem?_read (page : Page) {off n k : Nat} (hk : k < n) (hfits : off + n ≤ pageSize) :
    (page.read off n)[k]? = page[off + k]? := by
  have hin : off + k < pageSize := by omega
  rw [Page.read, Array.getElem?_extract_of_lt (by rw [Vector.size_toArray]; omega),
    Vector.getElem?_eq_getElem hin]
  rfl

/-- **The loop that reads** loads byte by byte. -/
theorem readFrom_loads (h : m.Backed) (s : SpaceId) (va : VirtAddr) (len done : Nat)
    (bytes : Array UInt8) (hdone : done ≤ len) (hsize : bytes.size = done)
    (hbefore : ∀ i, i < done →
      (m.place? s va i).isSome = true ∧ bytes[i]? = m.loadByte? s va i) :
    m.Loads s va len (m.readFrom s va len done bytes) := by
  rw [readFrom]
  by_cases hmore : done < len
  · rw [if_pos hmore]
    -- a byte without a place ends the loop with what has been read
    have hstop : m.place? s va done = none → m.Loads s va len ⟨bytes, some .notMapped⟩ := by
      intro hnone
      have hreach := reach_eq hdone (fun i hi => (hbefore i hi).1) fun _ => hnone
      refine ⟨hsize.trans hreach.symm, ?_, ?_⟩
      · rw [hreach]
        exact fun i hi => (hbefore i hi).2
      · rw [hreach, if_neg (Nat.ne_of_lt hmore)]
    cases hcur : va.add? done with
    | none =>
      refine hstop ?_
      unfold place?
      rw [hcur, Option.bind_none]
    | some cur =>
      rcases h.pageAt_cases hcur with ⟨hnone, hat⟩ | ⟨f, page, hplace, hpage, hat⟩
      · dsimp only
        rw [hat]
        exact hstop hnone
      · have hpos : 0 < chunk cur (len - done) := chunk_pos cur (by omega)
        have hle : chunk cur (len - done) ≤ len - done := chunk_le cur _
        have hfits := offset_add_chunk_le cur (len - done)
        have hread : (page.read cur.offset (chunk cur (len - done))).size =
            chunk cur (len - done) := by
          rw [Page.size_read]
          omega
        simp only [hat]
        refine readFrom_loads h s va len _ _ (by omega)
          (by rw [Array.size_append, hread, hsize]) fun i hi => ?_
        rcases Nat.lt_or_ge i done with hlt | hge
        · rw [Array.getElem?_append_left (by omega)]
          exact hbefore i hlt
        · obtain ⟨k, rfl⟩ := Nat.exists_eq_add_of_le hge
          have hplace' := place?_add hplace (show cur.offset + k < pageSize by omega)
          refine ⟨by rw [hplace', Option.isSome_some], ?_⟩
          rw [loadByte?_of_page? hplace' hpage, Array.getElem?_append_right (by omega), hsize,
            Nat.add_sub_cancel_left, getElem?_read page (by omega) hfits]
  · have hall : m.reach s va len = len := by
      refine reach_eq (Nat.le_refl _) (fun i hi => (hbefore i (by omega)).1) fun hlt => ?_
      exact absurd hlt (Nat.lt_irrefl _)
    rw [if_neg hmore]
    refine ⟨?_, ?_, ?_⟩
    · rw [hall]
      show bytes.size = len
      omega
    · rw [hall]
      exact fun i hi => (hbefore i (by omega)).2
    · rw [hall, if_pos rfl]
termination_by len - done

theorem readBytes_loads (h : m.Backed) (s : SpaceId) (va : VirtAddr) (len : Nat) :
    m.Loads s va len (m.readBytes s va len) :=
  readFrom_loads h s va len 0 #[] (Nat.zero_le len) rfl fun _ hi => absurd hi (Nat.not_lt_zero _)

theorem writeBytes_eq (h : m.Backed) (s : SpaceId) (va : VirtAddr) (data : Array UInt8) :
    m.writeBytes s va data = (m.storeEach s va data (m.reach s va data.size),
      if m.reach s va data.size = data.size then none else some .notMapped) :=
  writeFrom_storeEach h s va data 0 (Nat.zero_le _) fun _ hi => absurd hi (Nat.not_lt_zero _)

/-! ## The books, whatever is done -/

/-- **Every step keeps the books**; only reserving a page adds to what is reserved. -/
theorem Booked.step (h : m.Booked pins) {x : Step} (hx : x.Fits) :
    ∃ pins', (m.step x).Booked pins' := by
  obtain ⟨fresh, hb⟩ := h.books
  cases x with
  | command c => exact ⟨pins, h.carryOut hx⟩
  | reserve =>
    unfold Memory.step
    dsimp only
    split
    · rename_i m' f hr
      obtain ⟨hb', hextent, hspaces, -⟩ := hb.reserve hr
      exact ⟨f :: pins, h.of_spaces ⟨fresh, hb'⟩ hextent hspaces⟩
    · exact ⟨pins, h⟩
  | activate s => exact ⟨pins, h.of_spaces ⟨fresh, hb.accounts, hb.fits⟩ rfl rfl⟩
  | write s va data =>
    obtain ⟨-, honly⟩ := storeEach_keeps h.backed s va data (m.reach s va data.size)
    have hwrite : m.BytesOnly (m.writeBytes s va data).1 := by
      rw [writeBytes_eq h.backed]
      exact honly
    exact ⟨pins, h.of_spaces ⟨fresh, hb.writeFrom s va data 0⟩ hwrite.pool.extent hwrite.spaces⟩
  | poke f off bytes =>
    unfold Memory.step
    dsimp only
    split
    · rename_i pool hw
      have honly := FramePool.bytesOnly_write hw
      exact ⟨pins, h.of_spaces ⟨fresh, hb.accounts.write hw, honly.extent ▸ hb.fits⟩ honly.extent
        rfl⟩
    · exact ⟨pins, h⟩

theorem Booked.steps : ∀ {l : List Step} {m : Memory} {pins : List Frame}, m.Booked pins →
    (∀ x ∈ l, x.Fits) → ∃ pins', (m.steps l).Booked pins'
  | [], _, pins, h, _ => ⟨pins, h⟩
  | x :: _, _, _, h, hfits => by
    obtain ⟨pins', h'⟩ := h.step (hfits x List.mem_cons_self)
    exact h'.steps fun y hy => hfits y (List.mem_cons_of_mem x hy)

/-! ## The law -/

/-- A copy of `len` bytes at `va` gets as far as byte `k`: to the end, or to where a page starts
  that is not mapped or does not exist. -/
structure Reaches (m : Memory) (s : SpaceId) (va : VirtAddr) (len k : Nat) : Prop where
  le : k ≤ len
  before : ∀ i, i < k → (m.place? s va i).isSome = true
  stop : k < len → m.place? s va k = none ∧ (k = 0 ∨ (va.toNat + k) % pageSize = 0)

theorem reaches (m : Memory) (s : SpaceId) (va : VirtAddr) (len : Nat) :
    m.Reaches s va len (m.reach s va len) where
  le := reach_le m s va len
  before _ hi := isSome_of_lt_reach hi
  stop hlt := ⟨place?_reach hlt, reach_page hlt⟩

/-- Reading `len` bytes at `va` is reading single bytes. -/
structure ReadsBytes (m : Memory) (s : SpaceId) (va : VirtAddr) (len : Nat) : Prop where
  ok : (m.readBytes s va len).stopped = none ↔
    ∀ i, i < len → (m.place? s va i).isSome = true
  failed : ∀ err, (m.readBytes s va len).stopped = some err → err = .notMapped
  /-- So many bytes are read, whether or not the range is mapped to its end. -/
  reaches : m.Reaches s va len (m.readBytes s va len).bytes.size
  bytes : ∀ i, i < (m.readBytes s va len).bytes.size →
    (m.readBytes s va len).bytes[i]? = m.loadByte? s va i

/-- Writing `data` at `va` is storing its bytes one at a time. -/
structure WritesBytes (m : Memory) (s : SpaceId) (va : VirtAddr) (data : Array UInt8) : Prop where
  ok : (m.writeBytes s va data).2 = none ↔
    ∀ i, i < data.size → (m.place? s va i).isSome = true
  failed : ∀ err, (m.writeBytes s va data).2 = some err → err = .notMapped
  /-- So many bytes are stored, whether or not the range is mapped to its end. -/
  reaches : m.Reaches s va data.size (m.reach s va data.size)
  bytewise : (m.writeBytes s va data).1 = m.storeEach s va data (m.reach s va data.size)
  /-- Of several bytes with one place, the last stays. -/
  last : ∀ i f off, i < m.reach s va data.size → m.place? s va i = some (f, off) →
    (∀ j, i < j → j < m.reach s va data.size → m.place? s va j ≠ some (f, off)) →
      (m.writeBytes s va data).1.pool.byteIn? f off = data[i]?
  others : ∀ f off, (∀ i, i < m.reach s va data.size → m.place? s va i ≠ some (f, off)) →
    (m.writeBytes s va data).1.pool.byteIn? f off = m.pool.byteIn? f off
  /-- No mapping and no count changes. -/
  only : m.BytesOnly (m.writeBytes s va data).1
  /-- What was written comes back, if no two pages of the range are one frame. -/
  back : (m.writeBytes s va data).2 = none →
    (∀ i j f x y, i < data.size → j < data.size → m.place? s va i = some (f, x) →
      m.place? s va j = some (f, y) →
        (va.toNat + i) / pageSize = (va.toNat + j) / pageSize) →
    (m.writeBytes s va data).1.readBytes s va data.size = ⟨data, none⟩

theorem Backed.readsBytes (h : m.Backed) (s : SpaceId) (va : VirtAddr) (len : Nat) :
    m.ReadsBytes s va len := by
  have hloads := readBytes_loads h s va len
  have hsize := hloads.size
  have hstopped := hloads.stopped
  refine ⟨?_, ?_, ?_, ?_⟩
  · rw [← reach_eq_len_iff, hstopped]
    by_cases hall : m.reach s va len = len <;> simp [hall]
  · intro err herr
    rw [hstopped] at herr
    split at herr
    · cases herr
    · exact (Option.some.inj herr).symm
  · rw [hsize]
    exact Memory.reaches m s va len
  · rw [hsize]
    exact hloads.bytes

/-- Pages that are different frames give every byte a place of its own. -/
theorem place?_inj
    (hpages : ∀ i j f x y, i < len → j < len → m.place? s va i = some (f, x) →
      m.place? s va j = some (f, y) → (va.toNat + i) / pageSize = (va.toNat + j) / pageSize)
    (hi : i < len) (hj : j < len) (hplace : m.place? s va i = some (f, off))
    (hplace' : m.place? s va j = some (f, off)) : i = j := by
  have hpage := hpages i j f off off hi hj hplace hplace'
  have hoff := offset_of_place? hplace
  have hoff' := offset_of_place? hplace'
  simp only [pageSize] at *
  omega

/-- Every byte of a range with places of their own is read back. -/
theorem readBytes_storeEach (h : m.Backed) (hall : m.reach s va data.size = data.size)
    (hinj : ∀ i j f off, i < data.size → j < data.size → m.place? s va i = some (f, off) →
      m.place? s va j = some (f, off) → i = j) :
    (m.storeEach s va data data.size).readBytes s va data.size = ⟨data, none⟩ := by
  obtain ⟨hbacked, -⟩ := storeEach_keeps h s va data data.size
  have hplaces := place?_storeEach h s va data data.size
  have hreach : (m.storeEach s va data data.size).reach s va data.size = data.size := by
    refine Eq.trans ?_ hall
    unfold reach
    simp only [hplaces]
  obtain ⟨hsize, hread, hstopped⟩ := readBytes_loads hbacked s va data.size
  rw [hreach] at hsize hread hstopped
  rw [if_pos rfl] at hstopped
  have hbytes : ((m.storeEach s va data data.size).readBytes s va data.size).bytes = data := by
    refine Array.ext hsize fun i hi hi' => ?_
    obtain ⟨⟨f, off⟩, hplace⟩ := Option.isSome_iff_exists.1 (reach_eq_len_iff.1 hall i hi')
    have hlast : (m.storeEach s va data data.size).pool.byteIn? f off = some (data.getD i 0) := by
      refine (byteIn?_storeEach h s va data data.size f off).1 i hi' hplace ?_
      intro j hij hj hplace'
      have hsame := hinj i j f off hi' hj hplace hplace'
      omega
    have hat := hread i hi'
    rw [loadByte?, hplaces, hplace, Option.bind_some, hlast, Array.getElem?_eq_getElem hi,
      Option.some.injEq, Array.getD_eq_getD_getElem?, Array.getElem?_eq_getElem hi',
      Option.getD_some] at hat
    exact hat
  rw [← hstopped, ← congrArg₂ Reading.mk hbytes rfl]

theorem Backed.writesBytes (h : m.Backed) (s : SpaceId) (va : VirtAddr) (data : Array UInt8) :
    m.WritesBytes s va data := by
  have hreaches := Memory.reaches m s va data.size
  have hbytes := byteIn?_storeEach h s va data (m.reach s va data.size)
  have heq := writeBytes_eq h s va data
  refine ⟨?_, ?_, hreaches, by rw [heq], ?_, ?_, ?_, ?_⟩
  · rw [← reach_eq_len_iff, heq]
    by_cases hall : m.reach s va data.size = data.size <;> simp [hall]
  · intro err herr
    rw [heq] at herr
    dsimp only at herr
    split at herr
    · cases herr
    · exact (Option.some.inj herr).symm
  · intro i f off hi hplace hlast
    have hle := hreaches.le
    have hdata : data[i]? = some (data.getD i 0) := by
      rw [Array.getD_eq_getD_getElem?, Array.getElem?_eq_getElem (by omega), Option.getD_some]
    rw [heq, hdata]
    exact (hbytes f off).1 i hi hplace hlast
  · intro f off hnone
    rw [heq]
    exact (hbytes f off).2 hnone
  · rw [heq]
    exact (storeEach_keeps h s va data _).2
  · intro hwhole hpages
    have hall : m.reach s va data.size = data.size := by
      by_contra hnot
      rw [heq] at hwhole
      exact absurd ((if_neg hnot).symm.trans hwhole) nofun
    rw [heq]
    dsimp only
    rw [hall]
    exact readBytes_storeEach h hall fun i j f off hi hj => place?_inj hpages hi hj

/-- **A copy is a copy of bytes**, in every memory to which steps lead. -/
theorem copies_bytewise {n : Nat} (hn : n ≤ maxFrames) (l : List Step)
    (hfits : ∀ x ∈ l, x.Fits) (s : SpaceId) (va : VirtAddr) :
    (∀ len, ((ofSize n).steps l).ReadsBytes s va len) ∧
    ∀ data, ((ofSize n).steps l).WritesBytes s va data := by
  obtain ⟨pins, hbooked⟩ := (booked_ofSize hn).steps hfits
  exact ⟨hbooked.backed.readsBytes s va, hbooked.backed.writesBytes s va⟩

/-- One frame is mapped at two pages that follow each other. -/
def aliasing : List Step :=
  [.command .createSpace, .reserve, .command .allocPage,
    .command (.insert ⟨0⟩ ⟨.ofNat 0x402000⟩ (.ofNat 0x800000) ⟨7⟩),
    .command (.insert ⟨0⟩ ⟨.ofNat 0x402000⟩ (.ofNat 0x801000) ⟨7⟩)]

theorem copies_bytewise_aliasing :
    8 ≤ maxFrames ∧ (∀ x ∈ aliasing, x.Fits) ∧
    (∀ len, ((ofSize 8).steps aliasing).ReadsBytes ⟨0⟩ (.ofNat 0x800FFE) len) ∧
    ∀ data, ((ofSize 8).steps aliasing).WritesBytes ⟨0⟩ (.ofNat 0x800FFE) data :=
  ⟨by decide, by decide, copies_bytewise (by decide) aliasing (by decide) ⟨0⟩ (.ofNat 0x800FFE)⟩

/-- Bytes one page apart have one place, and a copy ends with the second page. -/
example : ((ofSize 8).steps aliasing).place? ⟨0⟩ (.ofNat 0x800FFE) 4096 =
      ((ofSize 8).steps aliasing).place? ⟨0⟩ (.ofNat 0x800FFE) 0 ∧
    ((ofSize 8).steps aliasing).reach ⟨0⟩ (.ofNat 0x801FFE) 5 = 2 := by
  decide +kernel

end Exokernel.Memory
